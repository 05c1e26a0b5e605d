import Troupe.Text.Quoted

/-!
# Descriptions of values

The layout in which values are shown to people: a name with its fields between
braces, a name with its parts between parentheses, a list between brackets.
-/

namespace Troupe.Text

/-- Texts with `sep` between neighbours. -/
def joined (sep : String) : List String → String
  | [] => ""
  | [s] => s
  | s :: rest => s ++ sep ++ joined sep rest

/-- A name and its named fields. -/
def record (name : String) (fields : List (String × String)) : String :=
  name ++ " \x7b " ++ joined ", " (fields.map fun f => f.1 ++ ": " ++ f.2) ++ " \x7d"

/-- A name and its named fields, some of which are left out. -/
def recordEtc (name : String) (fields : List (String × String)) : String :=
  name ++ " \x7b " ++ joined ", " (fields.map fun f => f.1 ++ ": " ++ f.2) ++ ", .. \x7d"

/-- A name and its parts. -/
def applied (name : String) (parts : List String) : String :=
  name ++ "(" ++ joined ", " parts ++ ")"

/-- A list. -/
def bracketed (items : List String) : String := "[" ++ joined ", " items ++ "]"

/-- A value that may be missing. -/
def optional : Option String → String
  | none => "None"
  | some s => applied "Some" [s]

/-- A truth value. -/
def truth (b : Bool) : String := if b then "true" else "false"

end Troupe.Text
