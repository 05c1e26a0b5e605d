import Troupe.Document.Yaml.Cursor
import Troupe.Text.Hex

/-!
# Texts of scalars

A scalar stands between quotes, plainly, or as a block of lines below its header. A line
break inside a quoted or plain scalar is folded: a single one reads as a blank, and of
several the first does not count. Blocks keep their line breaks or fold them, as their
headers say.

The indentation is that of the collection around the scalar. Reading takes fuel, one
unit per character, which suffices because every step consumes one.

* `text_single` — one line break is one blank.
-/

namespace Troupe.Yaml

/-! ## Between words -/

/-- What stands between two words. -/
structure Gap where
  /-- The blanks before the first line break, in reverse. -/
  blanks : List Char := []
  broken : Bool := false
  /-- Whether the first line break is escaped and leaves nothing. -/
  escaped : Bool := false
  /-- The line breaks after the first. -/
  more : Nat := 0

/-- How a gap reads. -/
def Gap.text (g : Gap) : List Char :=
  if g.broken then
    if g.more = 0 ∧ !g.escaped then [' '] else List.replicate g.more '\n'
  else g.blanks.reverse

theorem Gap.text_single (blanks : List Char) :
    (Gap.text { blanks, broken := true }) = [' '] := rfl

/-- Passes a gap. A tab left of the indentation is refused, unless `lenient` and the
line has no content. -/
def gap? (lenient : Bool) (indent : Int) : (fuel : Nat) → Gap → Cursor → Option (Gap × Cursor)
  | 0, _, _ => none
  | fuel + 1, g, p =>
    match p.rest with
    | [] => some (g, p)
    | c :: _ =>
      if c = '\n' then
        let g := if g.broken then { g with more := g.more + 1 } else { g with broken := true }
        gap? lenient indent fuel g p.next
      else if !isBlank c then some (g, p)
      else if !g.broken then gap? lenient indent fuel { g with blanks := c :: g.blanks } p.next
      else if c = '\t' ∧ (p.column : Int) < indent then
        if lenient then p.endOfLine?.bind (gap? lenient indent fuel g) else none
      else gap? lenient indent fuel g p.next

/-! ## Between quotes -/

/-- The character that a letter after a backslash stands for. -/
def shorthand? : Char → Option Char
  | '0' => some '\x00'
  | 'a' => some '\x07'
  | 'b' => some '\x08'
  | 't' => some '\t'
  | '\t' => some '\t'
  | 'n' => some '\n'
  | 'v' => some '\x0b'
  | 'f' => some '\x0c'
  | 'r' => some '\r'
  | 'e' => some '\x1b'
  | ' ' => some ' '
  | '"' => some '"'
  | '/' => some '/'
  | '\\' => some '\\'
  | 'N' => some '\u0085'
  | '_' => some '\u00a0'
  | 'L' => some '\u2028'
  | 'P' => some '\u2029'
  | _ => none

/-- How many digits follow a letter that gives a character by number. -/
def digitsAfter? : Char → Option Nat
  | 'x' => some 2
  | 'u' => some 4
  | 'U' => some 8
  | _ => none

/-- The character of a number, if there is one. -/
def character? (n : Nat) : Option Char :=
  if (0xd800 ≤ n ∧ n < 0xe000) ∨ 0x10ffff < n then none else some (Char.ofNat n)

/-- The character that stands escaped after a backslash, and the length of its escape. -/
def escape? : List Char → Option (Char × Nat)
  | [] => none
  | c :: rest =>
    match digitsAfter? c with
    | none => (shorthand? c).map fun c => (c, 1)
    | some width =>
      let ds := rest.take width
      if ds.length ≠ width then none
      else ((Text.Hex.toNat? ds).bind character?).map fun c => (c, width + 1)

/-- Reads a word up to a blank, a line break or the closing quote; answers whether an
escaped line break ended it. -/
def quotedWord? (single : Bool) : (fuel : Nat) → (done : List Char) → Cursor →
    Option (List Char × Bool × Cursor)
  | 0, _, _ => none
  | fuel + 1, done, p =>
    match p.rest with
    | [] => some (done, false, p)
    | c :: rest =>
      if c = '\n' || isBlank c then some (done, false, p)
      else if c = '\'' ∧ single then
        match rest with
        | '\'' :: _ => quotedWord? single fuel (c :: done) (p.pass 2)
        | _ => some (done, false, p)
      else if c = '"' ∧ !single then some (done, false, p)
      else if c = '\\' ∧ !single then
        match rest with
        | '\n' :: _ => some (done, true, p.pass 2)
        | _ =>
          match escape? rest with
          | some (c, width) => quotedWord? single fuel (c :: done) (p.pass (width + 1))
          | none => none
      else quotedWord? single fuel (c :: done) p.next

/-- Reads words and gaps up to the closing quote. -/
def quotedFrom? (single : Bool) (indent : Int) : (fuel : Nat) → (done : List Char) → Cursor →
    Option (List Char × Cursor)
  | 0, _, _ => none
  | fuel + 1, done, p => do
    if p.atMark || p.rest.isEmpty || (p.column : Int) < indent then none
    else
      let (done, escaped, p) ← quotedWord? single (p.rest.length + 1) done p
      if p.rest.head? = some (if single then '\'' else '"') then some (done.reverse, p.next)
      else
        let (g, p) ← gap? false indent (p.rest.length + 1) { broken := escaped, escaped } p
        quotedFrom? single indent fuel (g.text.reverse ++ done) p

/-- Reads a quoted scalar with what follows it on its line: nothing, or the mark of a
value if it is all on one line; between brackets, any mark. -/
def quoted? (single : Bool) (indent : Int) (inside : Bool) (start : Cursor) :
    Option (String × Cursor) := do
  let p := start.next
  let (text, p) ← quotedFrom? single indent (p.rest.length + 2) [] p
  let p ← p.trail?
  let follows := match p.rest with
    | [] => true
    | c :: _ =>
      c = '\n' || (c = ':' && (inside || start.line = p.line)) ||
        (inside && (c = ',' || c = '\x7d' || c = ']'))
  if follows then some (String.ofList text, p) else none

/-! ## Plain -/

/-- Whether a plain scalar goes on here, within a word. -/
def continues (inside : Bool) : List Char → Bool
  | [] => false
  | ':' :: rest => !endsWord rest && !(inside && (rest.head?.map isBracket).getD false)
  | c :: _ => !isBlank c && c != '\n' && !(inside && isBracket c)

/-- The word of a plain scalar that starts here. -/
def plainWord (inside : Bool) : List Char → List Char
  | [] => []
  | c :: rest => if continues inside (c :: rest) then c :: plainWord inside rest else []

/-- Whether a dash stands before a bracket. -/
def isLoneDash : List Char → Bool
  | '-' :: c :: _ => isBracket c
  | _ => false

/-- Reads words and gaps as far as a plain scalar goes: up to a comment, a mark, or a line
that is indented less than it. -/
def plainFrom? (inside : Bool) (indent : Int) : (fuel : Nat) → (done : List Char) → Gap →
    Cursor → Option (List Char × Cursor)
  | 0, _, _, _ => none
  | fuel + 1, done, g, p => do
    if p.atMark || p.rest.head? = some '#' then some (done.reverse, p)
    else if inside && isLoneDash p.rest then none
    else
      let word := plainWord inside p.rest
      let done := if word.isEmpty then done else word.reverse ++ g.text.reverse ++ done
      let p := p.pass word.length
      if p.rest.isEmpty || !endsWord p.rest then some (done.reverse, p)
      else
        let (g, p) ← gap? true indent (p.rest.length + 1) {} p
        if !inside && (p.column : Int) < indent then some (done.reverse, p)
        else plainFrom? inside indent fuel done g p

/-- Reads a plain scalar, which is not empty. -/
def plain? (indent : Int) (inside : Bool) (start : Cursor) : Option (String × Cursor) := do
  if inside && (start.column : Int) < indent then none
  else
    let (text, p) ← plainFrom? inside indent (start.rest.length + 2) [] {} start
    if text.isEmpty then none else some (String.ofList text, p)

/-! ## Blocks -/

/-- What becomes of the line breaks at the end of a block. -/
inductive Chomping where
  /-- The last line keeps its break. -/
  | clip
  | strip
  | keep
deriving DecidableEq, Repr

def chomping? : Char → Option Chomping
  | '+' => some .keep
  | '-' => some .strip
  | _ => none

/-- The width of an indentation that a digit gives; zero is none. -/
def width? (c : Char) : Option Nat :=
  if c.isDigit && c != '0' then some (c.toNat - '0'.toNat) else none

/-- Reads the header of a block after its first character: chomping and indentation, in
either order. -/
def header? (p : Cursor) : Option (Chomping × Option Nat × Cursor) := do
  let chomping := p.rest.head?.bind chomping?
  let p := if chomping.isSome then p.next else p
  let width := p.rest.head?.bind width?
  let p := if width.isSome then p.next else p
  let late := if chomping.isSome || width.isNone then none else p.rest.head?.bind chomping?
  let p := if late.isSome then p.next else p
  let p ← p.endOfLine?
  some ((chomping.or late).getD .clip, width, p)

/-- Passes the indentation of lines, of which those without content are counted. -/
def margin (width : Nat) : (fuel : Nat) → (breaks : Nat) → Cursor → Nat × Cursor
  | 0, breaks, p => (breaks, p)
  | fuel + 1, breaks, p =>
    let blanks := (p.rest.takeWhile (· == ' ')).length
    let p := p.pass (min (width - p.column) blanks)
    match p.rest with
    | '\n' :: _ => margin width fuel (breaks + 1) p.next
    | _ => (breaks, p)

/-- Passes the indentation of the first lines, up to one with content; answers the widest
indentation too. -/
def firstMargin : (fuel : Nat) → (widest breaks : Nat) → Cursor → Nat × Nat × Cursor
  | 0, widest, breaks, p => (widest, breaks, p)
  | fuel + 1, widest, breaks, p =>
    let p := p.passWhile (· == ' ')
    let widest := max widest p.column
    match p.rest with
    | '\n' :: _ => firstMargin fuel widest (breaks + 1) p.next
    | _ => (widest, breaks, p)

/-- The lines of a block that have been read. -/
structure Lines where
  /-- Their characters, in reverse. -/
  done : List Char := []
  /-- Whether a line break ended the last line with content. -/
  ended : Bool := false
  /-- Whether the last line with content starts with a blank. -/
  blank : Bool := false
  /-- How many lines without content follow. -/
  breaks : Nat := 0

/-- The line breaks before a line: folded between two lines that start with no blank. -/
def Lines.joint (s : Lines) (literal blank : Bool) : List Char :=
  let breaks := List.replicate s.breaks '\n'
  if !literal && s.ended && !s.blank && !blank then
    if s.breaks = 0 then [' '] else breaks
  else if s.ended then '\n' :: breaks
  else breaks

/-- Reads the lines that have the indentation of a block. -/
def blockLines (literal : Bool) (width : Nat) : (fuel : Nat) → Lines → Cursor → Lines × Cursor
  | 0, s, p => (s, p)
  | fuel + 1, s, p =>
    if p.column ≠ width || p.rest.isEmpty || (p.atMark && p.rest.head? = some '.') then (s, p)
    else
      let blank := (p.rest.head?.map isBlank).getD false
      let (line, p) := p.split (· != '\n')
      let done := line.reverse ++ (s.joint literal blank).reverse ++ s.done
      match p.rest with
      | [] => ({ done, blank }, p)
      | _ :: rest =>
        let (breaks, p) := margin width (rest.length + 1) 0 p.next
        blockLines literal width fuel { done, ended := true, blank, breaks } p

/-- Reads a block after its first character. -/
def block? (literal : Bool) (indent : Int) (start : Cursor) : Option (String × Cursor) := do
  let (chomping, given, p) ← header? start
  let opened := !p.rest.isEmpty
  let p := p.next
  if p.rest.head? = some '\t' then none
  else
    let fuel := p.rest.length + 1
    let (width, breaks, p) := match given with
      | some n =>
        let width := (max indent 0).toNat + n
        let (breaks, p) := margin width fuel 0 p
        (width, breaks, p)
      | none =>
        let (widest, breaks, p) := firstMargin fuel 0 0 p
        (max widest (indent + 1).toNat, breaks, p)
    if p.rest.isEmpty then
      let text := match chomping with
        | .strip => []
        | .clip => if opened then ['\n'] else []
        | .keep => List.replicate (if opened then max breaks 1 else 0) '\n'
      some (String.ofList text, p)
    else if p.column < width ∧ indent < (p.column : Int) then none
    else
      let (s, p) := blockLines literal width fuel { breaks } p
      let last := if s.ended then ['\n'] else []
      -- the end of the text ends a line too
      let atEnd := if p.rest.isEmpty ∧ max width 1 ≤ p.column then ['\n'] else []
      let tail := match chomping with
        | .strip => []
        | .clip => last ++ atEnd
        | .keep => last ++ atEnd ++ List.replicate s.breaks '\n'
      some (String.ofList (s.done.reverse ++ tail), p)

end Troupe.Yaml
