import Troupe.Document.Yaml.Plain
import Troupe.Document.Yaml.Token

/-!
# Reading nodes

From tokens to nodes. A node is a scalar, a sequence, a mapping or the repetition of a
node that was given a name; what is missing where a node may stand is null. A name
stands for the node that bore it last; within that node itself the repetition misfits.

Reading takes fuel, three units per token, which suffices because at most three steps
follow each other before a token is taken.

* `Names.define_get?` — a name that is given stands for its node.
-/

namespace Troupe.Yaml

/-! ## Names -/

/-- The names that nodes have borne so far, the latest first, and the nodes, misfits while
they are read. -/
structure Names where
  places : List (String × Nat) := []
  nodes : Array Node := #[]

namespace Names

/-- Gives a name to a node that is about to be read; answers its place. -/
def announce (n : Names) (name : String) : Names × Nat :=
  ({ places := (name, n.nodes.size) :: n.places, nodes := n.nodes.push .misfit }, n.nodes.size)

/-- Keeps a node that has been read, if it has a place. -/
def define (n : Names) (place : Option Nat) (node : Node) : Names :=
  match place with
  | none => n
  | some place => { n with nodes := n.nodes.setIfInBounds place node }

/-- The node of a name. -/
def get? (n : Names) (name : String) : Option Node :=
  (n.places.lookup name).bind fun place => n.nodes[place]?

theorem define_get? (n : Names) (name : String) (node : Node) :
    ((n.announce name).1.define (some (n.announce name).2) node).get? name = some node := by
  simp [announce, define, get?]

end Names

/-! ## Nodes -/

/-- What handles stand for. -/
abbrev Handles := List (String × String)

/-- A tag whose handle has its meaning; a handle between marks needs to be declared,
unless it is the standard one. -/
def Handles.resolve? (handles : Handles) (t : Tag) : Option Tag :=
  match handles.lookup t.handle with
  | some meaning => some { t with handle := meaning }
  | none =>
    if t.handle = "!!" then some { t with handle := Plain.standard }
    else if 2 ≤ t.handle.length then none
    else some t

/-- Tokens that have not been read yet, with the names given before them. -/
structure Stream where
  tokens : List Token
  names : Names := {}

def Stream.drop (s : Stream) (n : Nat) : Stream := { s with tokens := s.tokens.drop n }

/-- What stands before a node: the place of its name and its tag, in either order. -/
structure Properties where
  place : Option Nat := none
  tag : Option Tag := none

/-- Reads what stands before a node. -/
def properties? (handles : Handles) (s : Stream) : Option (Properties × Stream) :=
  let named (name : String) (rest : List Token) : Nat × Stream :=
    let (names, place) := s.names.announce name
    (place, { tokens := rest, names })
  match s.tokens with
  | .anchor name :: .tag t :: rest =>
    let (place, s) := named name rest
    (handles.resolve? t).map fun t => (⟨some place, some t⟩, s)
  | .anchor name :: rest =>
    let (place, s) := named name rest
    some (⟨some place, none⟩, s)
  | .tag t :: .anchor name :: rest =>
    let (place, s) := named name rest
    (handles.resolve? t).map fun t => (⟨some place, some t⟩, s)
  | .tag t :: rest => (handles.resolve? t).map fun t => (⟨none, some t⟩, { s with tokens := rest })
  | _ => some ({}, s)

/-- The value of a scalar. -/
def scalar (tag : Option Tag) (isPlain : Bool) (text : String) : Node :=
  if !isPlain then .text text
  else
    match tag with
    | some t => Plain.ofTagged t text
    | none => Plain.ofText text

/-- Whether no node stands between a mark of a mapping that is told by indentation and
what follows. -/
def isMissing : List Token → Bool
  | .key :: _ => true
  | .value :: _ => true
  | .blockEnd :: _ => true
  | _ => false

/-- Whether no node stands between a mark of an entry in brackets and what follows. -/
def isMissingInside (isSequence : Bool) : List Token → Bool
  | .value :: _ => true
  | .comma :: _ => true
  | .closing which :: _ => which == isSequence
  | _ => false

/-- Passes the comma between items; the last may have one behind it. -/
def afterComma? (first isSequence : Bool) (s : Stream) : Option Stream :=
  match s.tokens with
  | .comma :: _ => if first then none else some (s.drop 1)
  | .closing which :: _ => if which == isSequence then some s else none
  | _ => if first then some s else none

mutual

/-- Reads a node. Inside brackets nothing is told by indentation; the items of a sequence
may stand directly under their key. -/
def node? (handles : Handles) : (fuel : Nat) → (inside underKey : Bool) → Stream →
    Option (Node × Stream)
  | 0, _, _, _ => none
  | fuel + 1, inside, underKey, s =>
    match s.tokens with
    | .alias name :: rest => (s.names.get? name).map fun n => (n, { s with tokens := rest })
    | _ => do
      let (p, s) ← properties? handles s
      let (n, s) ← content? handles fuel inside underKey p s
      some (n, { s with names := s.names.define p.place n })

/-- Reads what a node is. -/
def content? (handles : Handles) : (fuel : Nat) → (inside underKey : Bool) → Properties → Stream →
    Option (Node × Stream)
  | 0, _, _, _, _ => none
  | fuel + 1, inside, underKey, p, s =>
    -- a name or a tag may stand for an empty scalar
    let empty := if p.place.isSome || p.tag.isSome then some (scalar p.tag true "", s) else none
    match s.tokens with
    | .scalar isPlain text :: _ => some (scalar p.tag isPlain text, s.drop 1)
    | .opening true :: _ => listed? handles fuel true [] (s.drop 1)
    | .opening false :: _ => paired? handles fuel true [] (s.drop 1)
    | .sequenceStart :: _ => if inside then empty else items? handles fuel [] (s.drop 1)
    | .mappingStart :: _ => if inside then empty else entries? handles fuel [] (s.drop 1)
    | .item :: _ => if underKey then lines? handles fuel [] s else empty
    | _ => empty

/-- Reads the items of a sequence that is told by indentation. -/
def items? (handles : Handles) : (fuel : Nat) → (done : List Node) → Stream →
    Option (Node × Stream)
  | 0, _, _ => none
  | fuel + 1, done, s =>
    match s.tokens with
    | .blockEnd :: _ => some (.list done.reverse, s.drop 1)
    | .item :: .item :: _ => items? handles fuel (.null :: done) (s.drop 1)
    | .item :: .blockEnd :: _ => items? handles fuel (.null :: done) (s.drop 1)
    | .item :: _ => do
      let (n, s) ← node? handles fuel false false (s.drop 1)
      items? handles fuel (n :: done) s
    | _ => none

/-- Reads the items of a sequence that stands directly under its key. -/
def lines? (handles : Handles) : (fuel : Nat) → (done : List Node) → Stream →
    Option (Node × Stream)
  | 0, _, _ => none
  | fuel + 1, done, s =>
    match s.tokens with
    | .item :: .item :: _ => lines? handles fuel (.null :: done) (s.drop 1)
    | .item :: rest =>
      if isMissing rest then lines? handles fuel (.null :: done) (s.drop 1)
      else do
        let (n, s) ← node? handles fuel false false (s.drop 1)
        lines? handles fuel (n :: done) s
    | _ => some (.list done.reverse, s)

/-- Reads the entries of a mapping that is told by indentation. -/
def entries? (handles : Handles) : (fuel : Nat) → (done : List Node) → Stream →
    Option (Node × Stream)
  | 0, _, _ => none
  | fuel + 1, done, s => do
    match s.tokens with
    | .blockEnd :: _ => (Node.ofEntries? done.reverse).map fun n => (n, s.drop 1)
    | .key :: rest =>
      let (key, s) ← if isMissing rest then some (.null, s.drop 1)
        else node? handles fuel false true (s.drop 1)
      let (value, s) ← entryValue? handles fuel s
      entries? handles fuel (value :: key :: done) s
    | .value :: _ =>
      let (value, s) ← entryValue? handles fuel s
      entries? handles fuel (value :: .null :: done) s
    | _ => none

/-- Reads the value of an entry after its key. -/
def entryValue? (handles : Handles) : (fuel : Nat) → Stream → Option (Node × Stream)
  | 0, _ => none
  | fuel + 1, s =>
    match s.tokens with
    | .value :: rest =>
      if isMissing rest then some (.null, s.drop 1)
      else node? handles fuel false true (s.drop 1)
    | _ => some (.null, s)

/-- Reads the items of a sequence between brackets; an item may be a single entry of a
mapping. Where its key is missing, the mark that is found instead is passed. -/
def listed? (handles : Handles) : (fuel : Nat) → (first : Bool) → (done : List Node) →
    Stream → Option (Node × Stream)
  | 0, _, _, _ => none
  | fuel + 1, first, done, s => do
    let s ← afterComma? first true s
    match s.tokens with
    | .closing true :: _ => some (.list done.reverse, s.drop 1)
    | .key :: rest =>
      let (key, s) ← if isMissingInside true rest then some (.null, s.drop 2)
        else node? handles fuel true false (s.drop 1)
      let (value, s) ← pairValue? handles fuel true s
      let entry ← Node.ofEntries? [key, value]
      listed? handles fuel false (entry :: done) s
    | _ =>
      let (n, s) ← node? handles fuel true false s
      listed? handles fuel false (n :: done) s

/-- Reads the entries of a mapping between brackets; a key may stand alone. -/
def paired? (handles : Handles) : (fuel : Nat) → (first : Bool) → (done : List Node) →
    Stream → Option (Node × Stream)
  | 0, _, _, _ => none
  | fuel + 1, first, done, s => do
    let s ← afterComma? first false s
    match s.tokens with
    | .closing false :: _ => (Node.ofEntries? done.reverse).map fun n => (n, s.drop 1)
    | .key :: rest =>
      let (key, s) ← if isMissingInside false rest then some (.null, s.drop 1)
        else node? handles fuel true false (s.drop 1)
      let (value, s) ← pairValue? handles fuel false s
      paired? handles fuel false (value :: key :: done) s
    | .value :: _ =>
      let (value, s) ← pairValue? handles fuel false s
      paired? handles fuel false (value :: .null :: done) s
    | _ =>
      let (key, s) ← node? handles fuel true false s
      paired? handles fuel false (.null :: key :: done) s

/-- Reads the value of an entry between brackets. -/
def pairValue? (handles : Handles) : (fuel : Nat) → (isSequence : Bool) → Stream →
    Option (Node × Stream)
  | 0, _, _ => none
  | fuel + 1, isSequence, s =>
    match s.tokens with
    | .value :: .comma :: _ => some (.null, s.drop 1)
    | .value :: .closing which :: _ =>
      if which == isSequence then some (.null, s.drop 1) else none
    | .value :: _ => node? handles fuel true false (s.drop 1)
    | _ => some (.null, s)

end

/-! ## Documents -/

/-- Reads the directives before a document; a version may be given once. Of several
directives only the last one declares a handle. -/
def directives? : (version : Bool) → Handles → List Token → Option (Handles × List Token)
  | version, _, .directive d :: rest =>
    match d with
    | .version => if version then none else directives? true [] rest
    | .handle handle meaning => directives? version [(handle, meaning)] rest
    | .reserved => directives? version [] rest
  | _, handles, tokens => some (handles, tokens)

/-- Whether a document ends here. -/
def endsDocument : List Token → Bool
  | [] => true
  | .directive _ :: _ => true
  | .documentStart :: _ => true
  | .documentEnd :: _ => true
  | _ => false

/-- Passes the mark at the end of a document; without it no directive may follow. Answers
whether there was one. -/
def afterDocument? : List Token → Option (Bool × List Token)
  | .documentEnd :: rest => some (true, rest)
  | .directive _ :: _ => none
  | tokens => some (false, tokens)

/-- Reads the documents of a text. `opened` says that one may begin without a mark. -/
def documents? : (fuel : Nat) → (opened : Bool) → (done : List Node) → List Token →
    Option (List Node)
  | 0, _, _, _ => none
  | fuel + 1, opened, done, tokens =>
    match tokens with
    | [] => some done.reverse
    | .documentEnd :: rest => documents? fuel opened done rest
    | _ => do
      let (handles, rest) ← directives? false [] tokens
      let (tokens, marked) ← match rest with
        | .documentStart :: rest => some (rest, true)
        | _ => if opened && rest.length = tokens.length then some (tokens, false) else none
      let (n, s) ← if marked && endsDocument tokens then some (.null, { tokens })
        else node? handles (3 * tokens.length + 3) false false { tokens }
      let (closed, tokens) ← afterDocument? s.tokens
      documents? fuel closed (n :: done) tokens

/-- The nodes that the documents of a text are. -/
def nodesOf? (text : String) : Option (List Node) :=
  (Token.ofText? text).bind fun tokens => documents? (tokens.length + 1) true [] tokens

end Troupe.Yaml
