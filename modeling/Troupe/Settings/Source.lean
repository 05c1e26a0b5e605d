import Troupe.Document.Json
import Troupe.Document.Toml
import Troupe.Document.Yaml
import Troupe.Settings.Reading

/-!
# Where settings come from

Settings are read from a file, whose format follows from its extension, and from the
environment, which overlays the file. A name that is no file is tried with each of the
known extensions appended.

* `find?_exact` — a name that is a file is not tried with extensions.
-/

namespace Troupe

/-- The formats of settings files. -/
inductive Format where
  | toml
  | json
  | yaml
deriving DecidableEq, Repr

namespace Format

/-- The extensions of a format. -/
def extensions : Format → List String
  | toml => ["toml"]
  | json => ["json"]
  | yaml => ["yaml", "yml"]

def all : List Format := [toml, json, yaml]

/-- The format of a file with an extension. -/
def ofExtension? (ext : String) : Option Format := all.find? fun f => f.extensions.contains ext

/-- Reads a text of a format. -/
def read? : Format → String → Option Document
  | toml => Toml.read?
  | json => Json.read?
  | yaml => Yaml.read?

end Format

/-- The files there are, by their paths. -/
abbrev Files := List (String × String)

namespace Files

/-- The parts of a path that lead somewhere. -/
def steps (path : String) : List String :=
  (path.splitOn "/").filter fun part => part != "" && part != "."

/-- The text of the file at the end of some steps. -/
def text? (files : Files) (here : List String) : Option String :=
  match files with
  | [] => none
  | (name, text) :: rest => if steps name = here then some text else text? rest here

/-- The directory of settings, which is there without files. -/
def settingsDirectory : String := "config"

/-- Whether there is a directory at the end of some steps. -/
def isDirectory (files : Files) (here : List String) : Bool :=
  here.isEmpty || here == [settingsDirectory] ||
    files.any fun file => here.isPrefixOf (steps file.1) && here != steps file.1

/-- Follows the parts of a path, which may only be followed from directories. -/
def follow? (files : Files) : (here : List String) → List String → Option (List String)
  | here, [] => some here
  | here, part :: rest =>
    if !files.isDirectory here then none
    else if part = "" ∨ part = "." then follow? files here rest
    else if part = ".." then if here.isEmpty then none else follow? files here.dropLast rest
    else follow? files (here ++ [part]) rest

/-- The text of the file at the end of a path from here. -/
def textAt? (files : Files) (parts : List String) : Option String :=
  if parts.head? = some "" then none else (files.follow? [] parts).bind files.text?

/-- What follows the last point of a file's name; a name that starts with its only point
has no extension. -/
def extension (name : String) : String :=
  let ext := (name.toList.reverse.takeWhile (· != '.')).reverse
  if name.length ≤ ext.length + 1 then "" else String.ofList ext

/-- The parts of a path with an extension added to the last that leads somewhere. -/
def withExtension? (parts : List String) (ext : String) : Option (List String) :=
  match parts.reverse.dropWhile fun part => part = "" ∨ part = "." with
  | [] => none
  | last :: before =>
    if last = ".." then none else some (before.reverse ++ [last ++ "." ++ ext])

/-- The format and text of the file that a path names, or of the first file that one of
the known extensions makes of it. -/
def find? (files : Files) (path : String) : Option (Format × String) :=
  let parts := path.splitOn "/"
  match files.textAt? parts with
  | some text =>
    (Format.ofExtension? (extension (parts.getLast?.getD ""))).map fun f => (f, text)
  | none =>
    let candidates := Format.all.flatMap fun f => f.extensions.map fun ext => (f, ext)
    candidates.findSome? fun (f, ext) =>
      ((withExtension? parts ext).bind files.textAt?).map fun text => (f, text)

theorem find?_exact {files : Files} {path text : String}
    (h : files.textAt? (path.splitOn "/") = some text) :
    files.find? path =
      (Format.ofExtension? (extension ((path.splitOn "/").getLast?.getD ""))).map
        fun f => (f, text) := by
  simp [find?, h]

end Files

/-- The start of the names of environment variables that carry settings. -/
def variableStart : String := "agent_weave__"

/-- A name with points in place of double underscores. -/
def pointed : List Char → List Char
  | '_' :: '_' :: rest => '.' :: pointed rest
  | c :: rest => c :: pointed rest
  | [] => []

/-- The key that a variable sets, if it carries a setting. -/
def keyOf? (name : String) : Option String :=
  let name := (Document.lower name).toList
  let start := variableStart.toList
  if start.isPrefixOf name then some (String.ofList (pointed (name.drop start.length))) else none

/-- The value that a variable's text stands for: a truth value, a whole number, a real
number or else the text itself. -/
def valueOf (text : String) : Document :=
  let w := Document.lower text
  if w = "true" then .truth true
  else if w = "false" then .truth false
  else
    match signed? text with
    | some n => .whole n
    | none =>
      match Decimal.Literal.float? text with
      | some x => .real x
      | none => .text text

/-- The settings in an environment, as rows whose keys are paths. -/
def environmentRows (environment : List (String × String)) : List (String × Document) :=
  environment.filterMap fun v => (keyOf? v.1).map fun key => (key, valueOf v.2)

/-- What is wrong with settings that could not be read. -/
def unreadable : Fault := .badSetting .unreadable

/-- The rows of a document that is a table. -/
def rowsOf : Document → Except Fault (List (String × Document))
  | .table rows => .ok rows
  | _ => .error unreadable

/-- The rows of a settings file. -/
def fileRows (format : Format) (text : String) : Except Fault (List (String × Document)) :=
  match format.read? text with
  | some d => rowsOf d
  | none => .error unreadable

namespace Settings

/-- Reads and accepts settings. -/
def ofDocument (d : Document) : Except Fault Settings :=
  match d.settings? with
  | none => .error unreadable
  | some s =>
    match s.validate with
    | .ok _ => .ok s
    | .error why => .error why

/-- The name under which a settings file is looked for. -/
def standardFile : String := Files.settingsDirectory ++ "/agent-weave"

/-- Settings from the standard file, if there is one, and the environment. -/
def load (files : Files) (environment : List (String × String)) : Except Fault Settings := do
  let rows ← match files.find? standardFile with
    | some (format, text) => fileRows format text
    | none => pure []
  ofDocument (((Document.table []).overlay rows).overlay (environmentRows environment))

/-- Settings from a given file, which has to be there. -/
def loadFrom (files : Files) (path : String) : Except Fault Settings := do
  match files.find? path with
  | some (format, text) =>
    let rows ← fileRows format text
    ofDocument ((Document.table []).overlay rows)
  | none => .error unreadable

end Settings

end Troupe
