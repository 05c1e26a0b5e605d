import Troupe.Document.Yaml.Property
import Troupe.Document.Yaml.Scalar

/-!
# Tokens

A text as a sequence of tokens in which its layout is made explicit: every collection
has its beginning and its end, and a key is marked before it is known that a colon
follows, by going back to where it began.

Collections outside brackets are told by indentation. The levels of indentation that
are open form a stack; a line that is indented less closes levels. Between the entries
of a collection a level of one column may stand, which holds its content to the right of
it but opens no collection.

Between brackets a colon may begin a mapping of one entry that has no brackets of its
own. Such a mapping does not know what stands around it: it ends at the next comma or
closing bracket, whichever collection that belongs to, and none begins after a brace or
the mark of a key until one has ended.

Reading takes fuel, one unit per character, which suffices because every token but the
last consumes one.

* `insert_tokens_size` — a token that is put in is one more token.
-/

namespace Troupe.Yaml

inductive Token where
  | directive (d : Directive)
  | documentStart
  | documentEnd
  | sequenceStart
  | mappingStart
  /-- The end of a collection that is told by indentation. -/
  | blockEnd
  /-- A collection between brackets. -/
  | opening (isSequence : Bool)
  | closing (isSequence : Bool)
  | comma
  /-- The dash before an item. -/
  | item
  | key
  | value
  | alias (name : String)
  | anchor (name : String)
  | tag (t : Tag)
  | scalar (isPlain : Bool) (text : String)
deriving DecidableEq, Repr

/-- A place where a key may have begun: a colon decides. -/
structure Candidate where
  /-- How many tokens stand before it. -/
  tokens : Nat
  line : Nat
  column : Nat
  index : Nat
  /-- Whether nothing but a key may stand there. -/
  required : Bool

/-- An open level of indentation. -/
structure Level where
  /-- The indentation around it. -/
  outer : Int
  opensBlock : Bool

/-- A text that has been read as far as a place. -/
structure Layout extends Cursor where
  tokens : Array Token := #[]
  indent : Int := -1
  levels : List Level := []
  /-- How many brackets are open. -/
  depth : Nat := 0
  /-- For each open bracket and for what is around all of them, where a key may have
  begun. -/
  candidates : List (Option Candidate) := [none]
  keyAllowed : Bool := true
  /-- Where a colon may follow what is between quotes or brackets without a blank. -/
  adjacent : Nat := 0
  /-- Whether a brace or the mark of a key has begun a mapping between brackets. -/
  begun : Bool := false
  /-- Whether the last colon has begun a mapping without brackets of its own. -/
  bare : Bool := false

/-- How long a key may be. -/
def keyLimit : Nat := 1024

/-- How many brackets may be open. -/
def bracketLimit : Nat := 255

namespace Layout

def inside (s : Layout) : Bool := 0 < s.depth

/-- Goes on to a place. -/
def goTo (s : Layout) (p : Cursor) : Layout := { s with toCursor := p }

def push (s : Layout) (t : Token) : Layout := { s with tokens := s.tokens.push t }

/-- Puts a token in after so many tokens. -/
def insert (s : Layout) (before : Nat) (t : Token) : Layout :=
  { s with tokens := s.tokens.extract 0 before ++ #[t] ++ s.tokens.extract before s.tokens.size }

theorem insert_tokens_size (s : Layout) (before : Nat) (t : Token)
    (h : before ≤ s.tokens.size) : (s.insert before t).tokens.size = s.tokens.size + 1 := by
  simp only [insert, Array.size_append, Array.size_extract, List.size_toArray,
    List.length_cons, List.length_nil]
  omega

/-! ## Levels of indentation -/

def topOpensBlock (s : Layout) : Bool := (s.levels.head?.map (·.opensBlock)).getD false

/-- Closes the levels that are indented more than a column. -/
def closeLevels (column : Int) : (levels : List Level) → (indent : Int) → Array Token →
    List Level × Int × Array Token
  | [], indent, tokens => ([], indent, tokens)
  | l :: rest, indent, tokens =>
    if column < indent then
      closeLevels column rest l.outer (if l.opensBlock then tokens.push .blockEnd else tokens)
    else (l :: rest, indent, tokens)

/-- Closes what is indented more than a column; brackets hold everything open. -/
def unroll (s : Layout) (column : Int) : Layout :=
  if s.inside then s
  else
    let (levels, indent, tokens) := closeLevels column s.levels s.indent s.tokens
    { s with levels, indent, tokens }

/-- Drops the innermost level if it opens no block. -/
def dropLoose (s : Layout) : Layout :=
  match s.levels with
  | l :: rest => if l.opensBlock then s else { s with levels := rest, indent := l.outer }
  | [] => s

/-- Opens a level for a collection, unless one is open there. -/
def roll (s : Layout) (column before : Nat) (t : Token) : Layout :=
  if s.inside then s
  else
    let s := if s.indent ≤ (column : Int) then s.dropLoose else s
    if s.indent < (column : Int) then
      { s.insert before t with levels := ⟨s.indent, true⟩ :: s.levels, indent := column }
    else s

/-- Opens a level of one column within a collection. -/
def rollColumn (s : Layout) : Layout :=
  if !s.inside && s.topOpensBlock then
    { s with levels := ⟨s.indent, false⟩ :: s.levels, indent := s.indent + 1 }
  else s

/-! ## Where keys may begin -/

/-- Notes that a key may begin here. -/
def noteKey (s : Layout) : Layout :=
  if s.keyAllowed then
    let required := !s.inside && s.indent == (s.column : Int) && s.topOpensBlock
    let c : Candidate := ⟨s.tokens.size, s.line, s.column, s.index, required⟩
    { s with candidates := some c :: s.candidates.tail }
  else s

def setCandidate (s : Layout) (c : Option Candidate) : Layout :=
  { s with candidates := c :: s.candidates.tail }

def candidate? (s : Layout) : Option Candidate := s.candidates.head?.join

/-- Gives up on the innermost place where a key may have begun. -/
def dropKey? (s : Layout) : Option Layout :=
  match s.candidate? with
  | none => some s
  | some c => if c.required then none else some (s.setCandidate none)

/-- Gives up on a place that is too far back; between brackets none is. -/
def expire? (s : Layout) : Option Layout :=
  match s.candidate? with
  | none => some s
  | some c =>
    if !s.inside && (c.line < s.line || c.index + keyLimit < s.index) then s.dropKey? else some s

def allowKey (s : Layout) (allowed : Bool) : Layout := { s with keyAllowed := allowed }

/-- Ends a mapping that has no brackets of its own. -/
def endBare (s : Layout) : Layout :=
  if s.bare then { s.push (.closing false) with begun := false, bare := false } else s

/-! ## Between tokens -/

/-- Passes blanks, line breaks and comments up to the next token. A tab may indent
nothing. -/
def skip? : (fuel : Nat) → Layout → Option Layout
  | 0, _ => none
  | fuel + 1, s =>
    match s.rest with
    | [] => some s
    | c :: _ =>
      if c = '\t' ∧ s.fresh ∧ !s.levels.isEmpty ∧ (s.column : Int) < s.indent then
        s.endOfLine?.bind fun p => skip? fuel (s.goTo p)
      else if isBlank c then skip? fuel (s.goTo s.next)
      else if c = '\n' then
        let s := s.goTo s.next
        skip? fuel (if s.inside then s else s.allowKey true)
      else if c = '#' then skip? fuel (s.goTo (s.passWhile (· != '\n')))
      else some s

/-! ## Tokens -/

/-- A directive or a mark between documents closes everything. -/
def closeAll? (s : Layout) : Option Layout := do
  let s ← (s.unroll (-1)).dropKey?
  some (s.allowKey false)

def directiveToken? (s : Layout) : Option Layout := do
  let s ← s.closeAll?
  let (d, p) ← directive? s.toCursor
  some ((s.goTo p).push (.directive d))

/-- Reads a mark between documents; what ends one ends its line. -/
def markToken? (s : Layout) : Option Layout := do
  let s ← s.closeAll?
  let p := s.pass 3
  if s.rest.head? = some '-' then some ((s.goTo p).push .documentStart)
  else
    let p ← p.endOfLine?
    some ((s.goTo p).push .documentEnd)

def openingToken? (isSequence : Bool) (s : Layout) : Option Layout := do
  let s := s.noteKey.rollColumn
  if bracketLimit ≤ s.depth then none
  else
    let p ← s.next.trail?
    some { (s.goTo p).push (.opening isSequence) with
      depth := s.depth + 1
      candidates := none :: s.candidates
      keyAllowed := true
      begun := s.begun || !isSequence }

def closingToken? (isSequence : Bool) (s : Layout) : Option Layout := do
  let s ← s.dropKey?
  let s := if s.inside then { s with candidates := s.candidates.tail } else s
  let s := { s with depth := s.depth - 1, keyAllowed := false }.endBare
  let p ← s.next.trail?
  let adjacent := if s.inside then p.index else s.adjacent
  some { (s.goTo p).push (.closing isSequence) with adjacent }

def commaToken? (s : Layout) : Option Layout := do
  let s := (← s.dropKey?).endBare
  let p ← s.next.trail?
  some (((s.goTo p).allowKey true).push .comma)

/-- Reads the dash before an item, which may open a sequence. -/
def itemToken? (s : Layout) : Option Layout := do
  if s.inside || !s.keyAllowed then none
  else
    let p := s.next
    let blanks := p.rest.takeWhile isBlank
    let p ← p.trail?
    let s := (s.roll s.column s.tokens.size .sequenceStart).goTo p
    -- after a tab no second dash may follow
    if blanks.contains '\t' && p.rest.head? = some '-' && endsWord (p.rest.drop 1) then none
    else
      let opens := (p.rest.head?.map fun c => c == '\n' || isBracket c).getD false
      let s ← (if opens then s.rollColumn else s).dropKey?
      some ((s.allowKey true).push .item)

/-- Passes blanks, line breaks and comments after the mark of a key. -/
def afterKeyMark : (fuel : Nat) → Layout → Layout
  | 0, s => s
  | fuel + 1, s =>
    match s.rest with
    | ' ' :: _ => afterKeyMark fuel (s.goTo s.next)
    | '\n' :: _ =>
      let s := s.goTo s.next
      afterKeyMark fuel (if s.inside then s else s.allowKey true)
    | '#' :: _ => afterKeyMark fuel (s.goTo (s.passWhile (· != '\n')))
    | _ => s

/-- Reads the mark before a key that is no word of its own line. -/
def keyToken? (s : Layout) : Option Layout := do
  if !s.inside && !s.keyAllowed then none
  else
    let s ← (s.roll s.column s.tokens.size .mappingStart).dropKey?
    let s := ({ s with begun := s.begun || s.inside }.allowKey (!s.inside)).goTo s.next
    let after := afterKeyMark (s.rest.length + 1) s
    if after.index = s.index || after.rest.head? = some '\t' then none
    else some (after.push .key)

/-- Reads the colon before a value: what began at the last place where a key may begin is
a key, of a bare mapping if none has begun. -/
def valueToken? (s : Layout) : Option Layout := do
  let start := s.toCursor
  let p := s.next
  let gap := p.rest.takeWhile isBlank
  -- a tab alone does not set a word off from its colon
  let set := !(gap.head? = some '\t') || gap.contains ' ' ||
    !(((p.rest.drop gap.length).head?.map isWordChar).getD false)
  if !set then none
  else
    let s := { s.goTo p with bare := s.inside && !s.begun }
    match s.candidate? with
    | some c =>
      if s.bare && c.line < start.line then none
      else
        let s := s.insert c.tokens .key
        let s := if s.bare then s.insert c.tokens (.opening false) else s
        let s := s.roll c.column c.tokens .mappingStart
        let s := s.rollColumn.setCandidate none
        some ((s.allowKey false).push .value)
    | none =>
      if !s.inside && !s.keyAllowed then none
      else
        let s := if s.bare then s.push (.opening false) else s
        let s := s.roll start.column s.tokens.size .mappingStart
        some ((s.rollColumn.allowKey (!s.inside)).push .value)

/-- Reads a property of a node or an alias, which may begin a key. -/
def propertyToken? {α : Type} (token : α → Token) (read : Cursor → Option (α × Cursor))
    (s : Layout) : Option Layout := do
  let s := s.noteKey.allowKey false
  let (a, p) ← read s.toCursor
  some ((s.goTo p).push (token a))

def quotedToken? (single : Bool) (s : Layout) : Option Layout := do
  let s := s.noteKey.allowKey false
  let (text, p) ← quoted? single s.indent s.inside s.toCursor
  let s := s.goTo p
  let s ← skip? (s.rest.length + 1) s
  some { s.push (.scalar false text) with adjacent := s.index }

def blockToken? (literal : Bool) (s : Layout) : Option Layout := do
  let s := (s.noteKey.allowKey true).dropLoose
  let (text, p) ← block? literal s.indent s.next
  some ((s.goTo p).push (.scalar false text))

def plainToken? (s : Layout) : Option Layout := do
  let s := (s.noteKey.allowKey false).dropLoose
  let (text, p) ← plain? (s.indent + 1) s.inside s.toCursor
  let s := (s.goTo p).push (.scalar true text)
  some (if p.fresh then s.allowKey true else s)

/-- Whether a colon here stands before a value. -/
def startsValue (s : Layout) (after : List Char) : Bool :=
  endsWord after ||
    (s.inside && ((after.head?.map isBracket).getD false || s.index == s.adjacent))

/-- Reads the token that starts here. -/
def token? (s : Layout) : Option Layout :=
  if s.column = 0 ∧ s.rest.head? = some '%' then s.directiveToken?
  else if s.atMark then s.markToken?
  else if (s.column : Int) < s.indent then none
  else
    match s.rest with
    | [] => some s
    | '[' :: _ => s.openingToken? true
    | '\x7b' :: _ => s.openingToken? false
    | ']' :: _ => s.closingToken? true
    | '\x7d' :: _ => s.closingToken? false
    | ',' :: _ => s.commaToken?
    | '*' :: _ => s.propertyToken? .alias name?
    | '&' :: _ => s.propertyToken? .anchor name?
    | '!' :: _ => s.propertyToken? .tag (tag? s.inside)
    | '\'' :: _ => s.quotedToken? true
    | '"' :: _ => s.quotedToken? false
    | c :: after =>
      if c = '-' ∧ endsWord after then s.itemToken?
      else if c = '?' ∧ endsWord after then s.keyToken?
      else if c = ':' ∧ s.startsValue after then s.valueToken?
      else if c = '|' ∧ !s.inside then s.blockToken? true
      else if c = '>' ∧ !s.inside then s.blockToken? false
      else if c = '%' ∨ c = '@' ∨ c = '\x60' then none
      else s.plainToken?

/-- Closes everything at the end of the text. -/
def finish? (s : Layout) : Option Layout :=
  if s.candidates.any fun c => (c.map (·.required)).getD false then none
  else some (s.unroll (-1))

/-- Reads tokens to the end of the text. -/
def tokens? : (fuel : Nat) → Layout → Option (Array Token)
  | 0, _ => none
  | fuel + 1, s => do
    let s ← skip? (s.rest.length + 1) s
    let s ← s.expire?
    let s := s.unroll s.column
    if s.rest.isEmpty then s.finish?.map (·.tokens) else tokens? fuel (← s.token?)

end Layout

/-- The tokens of a text. -/
def Token.ofText? (text : String) : Option (List Token) :=
  let rest := unified text.toList
  (Layout.tokens? (rest.length + 1) { rest }).map (·.toList)

end Troupe.Yaml
