import Troupe.Text.Hex
import Troupe.Text.Invisible

/-!
# Quoted text

The form in which a text is shown inside a description of a value: between double
quotes, with the quote, the backslash, the common controls and everything that
cannot be seen written out.

* `quote_plain` — a text of plain characters stands as it is.
-/

namespace Troupe.Text

/-- How one character is written between double quotes. -/
def escaped (c : Char) : List Char :=
  match c with
  | '"' => ['\\', '"']
  | '\\' => ['\\', '\\']
  | '\n' => ['\\', 'n']
  | '\r' => ['\\', 'r']
  | '\t' => ['\\', 't']
  | '\x00' => ['\\', '0']
  | c => if isInvisible c then ['\\', 'u', '\x7b'] ++ Hex.shortest c.toNat ++ ['\x7d'] else [c]

/-- A text between double quotes. -/
def quote (s : String) : String :=
  String.ofList (['"'] ++ s.toList.flatMap escaped ++ ['"'])

/-- Whether a character stands for itself between quotes. -/
def IsPlain (c : Char) : Prop := escaped c = [c]

/-- A text of plain characters is quoted by its quotes alone. -/
theorem quote_plain (s : String) (h : ∀ c ∈ s.toList, IsPlain c) :
    (quote s).toList = '"' :: s.toList ++ ['"'] := by
  have key : ∀ cs : List Char, (∀ c ∈ cs, IsPlain c) → cs.flatMap escaped = cs := by
    intro cs
    induction cs with
    | nil => intro _; rfl
    | cons c rest ih =>
        intro hc
        have hhead : escaped c = [c] := hc c (by simp)
        simp [hhead, ih fun d hd => hc d (by simp [hd])]
  simp [quote, key _ h]

end Troupe.Text
