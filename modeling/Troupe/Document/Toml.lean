import Troupe.Decimal.Literal
import Troupe.Document.Basic
import Troupe.Text.Hex
import Troupe.Word

/-!
# TOML

Reading a TOML text into a document. The text is a sequence of expressions: rows, which
go into the table opened last, and headers, which open one. A key may be given once; a
table may be opened once, unless it exists only because a table inside it was opened.
Dates and times become texts.

Lists and tables may stand inside each other up to a limit, which holds for the parts of
a key too. Reading takes fuel besides; `read?` gives it one unit per character, which
suffices because every step consumes a character.
-/

namespace Troupe.Toml

/-! ## Scanning -/

def isBlank (c : Char) : Bool := c == ' ' || c == '\t'

def skip (cs : List Char) : List Char := cs.dropWhile isBlank

/-- Whether a character may stand in a key without quotes. -/
def isBare (c : Char) : Bool := c.isAlphanum || c == '-' || c == '_'

/-- Whether a character is a control that no comment and no literal string may hold. -/
def isControl (c : Char) : Bool := (c.toNat < 0x20 && c != '\t') || c == '\x7f'

/-- Drops a comment, when one starts here. -/
def skipComment? : List Char → Option (List Char)
  | '#' :: rest =>
    let after := rest.dropWhile fun c => !isControl c
    match after with
    | [] => some []
    | '\n' :: _ => some after
    | '\r' :: '\n' :: _ => some after
    | _ => none
  | cs => some cs

/-- Reads the end of a line: a comment, a line break, or the end of the text. -/
def endLine? (cs : List Char) : Option (List Char) := do
  match ← skipComment? (skip cs) with
  | [] => some []
  | '\n' :: rest => some rest
  | '\r' :: '\n' :: rest => some rest
  | _ => none

/-- Drops blanks, line breaks and comments. -/
def skipLines? : (fuel : Nat) → List Char → Option (List Char)
  | 0, _ => none
  | fuel + 1, cs =>
    match skip cs with
    | '\n' :: rest => skipLines? fuel rest
    | '\r' :: '\n' :: rest => skipLines? fuel rest
    | '#' :: rest => (skipComment? ('#' :: rest)).bind (skipLines? fuel)
    | rest => some rest

/-! ## Strings -/

/-- A character given by so many hexadecimal digits. -/
def numbered? (width : Nat) (cs : List Char) : Option (Char × List Char) := do
  let ds := cs.take width
  if ds.length ≠ width then none
  else
    let n ← Text.Hex.toNat? ds
    if (0xd800 ≤ n ∧ n < 0xe000) ∨ 0x10ffff < n then none
    else some (Char.ofNat n, cs.drop width)

/-- Reads an escape, after the backslash. -/
def escape? : List Char → Option (Char × List Char)
  | 'b' :: rest => some ('\x08', rest)
  | 't' :: rest => some ('\t', rest)
  | 'n' :: rest => some ('\n', rest)
  | 'f' :: rest => some ('\x0c', rest)
  | 'r' :: rest => some ('\r', rest)
  | '"' :: rest => some ('"', rest)
  | '\\' :: rest => some ('\\', rest)
  | 'u' :: rest => numbered? 4 rest
  | 'U' :: rest => numbered? 8 rest
  | _ => none

/-- Reads the rest of a quoted string of one line. -/
def basic? : (fuel : Nat) → (done : List Char) → List Char → Option (String × List Char)
  | 0, _, _ => none
  | fuel + 1, done, cs =>
    match cs with
    | '"' :: rest => some (String.ofList done.reverse, rest)
    | '\\' :: rest =>
      match escape? rest with
      | some (c, rest) => basic? fuel (c :: done) rest
      | none => none
    | c :: rest => if isControl c then none else basic? fuel (c :: done) rest
    | [] => none

/-- Reads the rest of a string of one line that knows no escapes. -/
def literal? (cs : List Char) : Option (String × List Char) :=
  let s := cs.takeWhile fun c => c != '\'' && !isControl c
  match cs.drop s.length with
  | '\'' :: rest => some (String.ofList s, rest)
  | _ => none

/-- Drops blanks and line breaks; a carriage return counts only as part of a break. -/
def dropBlankLines : List Char → List Char
  | '\n' :: rest => dropBlankLines rest
  | '\r' :: '\n' :: rest => dropBlankLines rest
  | c :: rest => if isBlank c then dropBlankLines rest else c :: rest
  | [] => []

/-- After a backslash at the end of a line: drops the blanks and line breaks that follow. -/
def continued? (cs : List Char) : Option (List Char) :=
  match skip cs with
  | '\n' :: rest => some (dropBlankLines rest)
  | '\r' :: '\n' :: rest => some (dropBlankLines rest)
  | _ => none

/-- Reads the rest of a string of several lines; `quote` ends it when it stands three
times, and up to two of it may stand before. -/
def long? (quote : Char) : (fuel : Nat) → (done : List Char) → List Char →
    Option (String × List Char)
  | 0, _, _ => none
  | fuel + 1, done, cs =>
    match cs with
    | [] => none
    | '\n' :: rest => long? quote fuel ('\n' :: done) rest
    | '\r' :: '\n' :: rest => long? quote fuel ('\n' :: done) rest
    | c :: rest =>
      if c = quote then
        let run := cs.takeWhile (· == quote)
        -- three quotes end the string; up to two before them belong to it
        if run.length < 3 then long? quote fuel (c :: done) rest
        else if 5 < run.length then none
        else
          some (String.ofList ((run.drop 3) ++ done).reverse, cs.drop run.length)
      else if c = '\\' ∧ quote = '"' then
        match continued? rest with
        | some rest => long? quote fuel done rest
        | none =>
          match escape? rest with
          | some (e, rest) => long? quote fuel (e :: done) rest
          | none => none
      else if isControl c then none
      else long? quote fuel (c :: done) rest

/-- A line break right after the opening quotes does not belong to the string. -/
def dropFirstBreak : List Char → List Char
  | '\n' :: rest => rest
  | '\r' :: '\n' :: rest => rest
  | cs => cs

/-- Reads a string of any of the four kinds. -/
def string? (cs : List Char) : Option (String × List Char) :=
  let fuel := cs.length + 1
  match cs with
  | '"' :: '"' :: '"' :: rest => long? '"' fuel [] (dropFirstBreak rest)
  | '\'' :: '\'' :: '\'' :: rest => long? '\'' fuel [] (dropFirstBreak rest)
  | '"' :: rest => basic? fuel [] rest
  | '\'' :: rest => literal? rest
  | _ => none

/-! ## Keys -/

/-- Reads one part of a key. -/
def keyPart? (cs : List Char) : Option (String × List Char) :=
  match cs with
  | '"' :: rest => basic? (cs.length + 1) [] rest
  | '\'' :: rest => literal? rest
  | _ =>
    let part := cs.takeWhile isBare
    if part.isEmpty then none else some (String.ofList part, cs.drop part.length)

/-- How deep lists and tables may stand inside each other within a value, and how many
parts a key may have. -/
def depthLimit : Nat := 79

/-- Reads a key: parts with points between them, at most `room` of them. -/
def keyWithin? : (room : Nat) → List Char → Option (List String × List Char)
  | 0, _ => none
  | room + 1, cs => do
    let (part, rest) ← keyPart? (skip cs)
    match skip rest with
    | '.' :: rest =>
      let (parts, rest) ← keyWithin? room rest
      some (part :: parts, rest)
    | rest => some ([part], rest)

/-- Reads a key. -/
def key? (cs : List Char) : Option (List String × List Char) := keyWithin? depthLimit cs

/-! ## Scalars -/

/-- Digits of a base with single underscores between them; answers the digits alone. -/
def grouped? (isDigit : Char → Bool) (cs : List Char) : Option (List Char) :=
  let rec go : Bool → List Char → Option (List Char)
    | afterDigit, [] => if afterDigit then some [] else none
    | afterDigit, c :: rest =>
      if c = '_' then if afterDigit then go false rest else none
      else if isDigit c then (go true rest).map (c :: ·)
      else none
  go false cs

/-- The value of digits in a base. -/
def valueIn (base : Nat) (ds : List Char) : Nat :=
  ds.foldl (fun n c => n * base + (Text.Hex.value? c).getD 0) 0

/-- A whole number, if it fits a signed word. -/
def wholeOf? (n : Int) : Option Document :=
  if -(Word.half : Int) ≤ n ∧ n < Word.half then some (.whole n) else none

/-- Digits before the point, without a superfluous leading zero. -/
def leading? (cs : List Char) : Option (List Char) :=
  match grouped? Char.isDigit cs with
  | some ('0' :: _ :: _) => none
  | ds => ds

/-- Splits an exponent off, at the first letter `e`. -/
def splitExponent (cs : List Char) : List Char × Option (List Char) :=
  let mantissa := cs.takeWhile fun c => c != 'e' && c != 'E'
  match cs.drop mantissa.length with
  | _ :: rest => (mantissa, some rest)
  | [] => (mantissa, none)

/-- Reads an unsigned real number: digits with a fraction or an exponent. -/
def real? (negative : Bool) (cs : List Char) : Option Document := do
  let (mantissa, exponent) := splitExponent cs
  let whole := mantissa.takeWhile (· != '.')
  let ds ← leading? whole
  let fraction ← match mantissa.drop whole.length with
    | [] => some []
    | _ :: fs => grouped? Char.isDigit fs
  let e : Int ← match exponent with
    | none => if fraction.isEmpty then none else some 0
    | some es =>
      let (down, es) := Decimal.Literal.sign es
      (grouped? Char.isDigit es).map fun ds =>
        let n : Int := Decimal.Literal.natOf 0 ds
        if down then -n else n
  let n := Decimal.Literal.natOf (Decimal.Literal.natOf 0 ds) fraction
  let x := Decimal.Literal.toFloat ⟨negative, n, e - (fraction.length : Int)⟩
  if x.isInf && !negative then none else some (.real x)

/-- Two or more digits as a number within bounds. -/
def field? (width low high : Nat) (cs : List Char) : Option (List Char) :=
  let ds := cs.take width
  let n := Decimal.Literal.natOf 0 ds
  if ds.length = width ∧ ds.all Char.isDigit ∧ low ≤ n ∧ n ≤ high then some (cs.drop width)
  else none

/-- The days of a month. -/
def daysIn (year month : Nat) : Nat :=
  if month = 2 then
    if year % 4 = 0 ∧ (year % 100 ≠ 0 ∨ year % 400 = 0) then 29 else 28
  else if month = 4 ∨ month = 6 ∨ month = 9 ∨ month = 11 then 30
  else 31

/-- Reads a given character. -/
def char? (c : Char) : List Char → Option (List Char)
  | d :: rest => if c = d then some rest else none
  | [] => none

/-- Reads a date. -/
def date? (cs : List Char) : Option (List Char) := do
  let rest ← field? 4 0 9999 cs >>= char? '-'
  let afterMonth ← field? 2 1 12 rest
  let month := Decimal.Literal.natOf 0 (rest.take 2)
  let days := daysIn (Decimal.Literal.natOf 0 (cs.take 4)) month
  char? '-' afterMonth >>= field? 2 1 days

/-- Reads a time of day. -/
def time? (cs : List Char) : Option (List Char) := do
  let rest ← field? 2 0 23 cs >>= char? ':' >>= field? 2 0 59 >>= char? ':' >>= field? 2 0 60
  match rest with
  | '.' :: fs => if (fs.takeWhile Char.isDigit).isEmpty then none else some (fs.dropWhile Char.isDigit)
  | _ => some rest

/-- Reads an offset from universal time, when one follows. -/
def offset? : List Char → Option (List Char)
  | c :: rest =>
    if c = 'Z' ∨ c = 'z' then some rest
    else if c = '+' ∨ c = '-' then
      field? 2 0 23 rest >>= char? ':' >>= field? 2 0 59
    else some (c :: rest)
  | [] => some []

/-- Reads a date, a time, or both. -/
def moment? (cs : List Char) : Option (List Char) :=
  match date? cs with
  | none => time? cs
  | some (c :: rest) =>
    if c = 'T' ∨ c = 't' then time? rest >>= offset?
    else if c = ' ' then
      match rest with
      | d :: _ => if d.isDigit then time? rest >>= offset? else some (c :: rest)
      | [] => some (c :: rest)
    else some (c :: rest)
  | some [] => some []

/-- Whether a character may belong to a number, a word or a moment. -/
def isScalar (c : Char) : Bool := isBare c || c == '+' || c == '.' || c == ':'

/-- A number without a sign. -/
def unsigned? (negative signed : Bool) (cs : List Char) : Option Document :=
  match cs with
  | '0' :: 'x' :: ds =>
    if signed then none
    else
      (grouped? (fun c => (Text.Hex.value? c).isSome) ds).bind fun ds => wholeOf? (valueIn 16 ds)
  | '0' :: 'o' :: ds =>
    if signed then none
    else (grouped? (fun c => '0' ≤ c && c ≤ '7') ds).bind fun ds => wholeOf? (valueIn 8 ds)
  | '0' :: 'b' :: ds =>
    if signed then none
    else (grouped? (fun c => c == '0' || c == '1') ds).bind fun ds => wholeOf? (valueIn 2 ds)
  | _ =>
    if cs = "inf".toList then some (.real (if negative then -1.0 / 0.0 else 1.0 / 0.0))
    else if cs = "nan".toList then some (.real (0.0 / 0.0))
    else
      match leading? cs with
      | some ds =>
        let n : Int := Decimal.Literal.natOf 0 ds
        wholeOf? (if negative then -n else n)
      | none => real? negative cs

/-- Reads a number, a truth value or a moment. -/
def scalar? (cs : List Char) : Option (Document × List Char) :=
  match moment? cs with
  | some rest => some (.text (String.ofList (cs.take (cs.length - rest.length))), rest)
  | none =>
    let token := cs.takeWhile isScalar
    let rest := cs.drop token.length
    let d :=
      if token = "true".toList then some (.truth true)
      else if token = "false".toList then some (.truth false)
      else
        match token with
        | '-' :: more => unsigned? true true more
        | '+' :: more => unsigned? false true more
        | _ => unsigned? false false token
    d.map fun d => (d, rest)

/-! ## Tables under construction -/

/-- What stands at a key while the text is read. -/
inductive Entry where
  | value (d : Document)
  /-- A table: `implied` when only something inside it was named, `dotted` when it was
  named by a row and not by a header. -/
  | table (implied dotted : Bool) (rows : List (String × Entry))
  /-- Tables under one header, the last of them open. -/
  | tables (items : List (List (String × Entry)))

abbrev Entries := List (String × Entry)

def find? (key : String) : Entries → Option Entry
  | [] => none
  | (k, e) :: rest => if k = key then some e else find? key rest

def put (key : String) (e : Entry) : Entries → Entries
  | [] => [(key, e)]
  | (k, d) :: rest => if k = key then (key, e) :: rest else (k, d) :: put key e rest

/-- Goes down a path, making tables where there are none, and changes the rows found
there. The change is told whether it works on a table named by a row. -/
def edit (byRow : Bool) (change : Bool → Entries → Option Entries) :
    (path : List String) → (dotted : Bool) → Entries → Option Entries
  | [], dotted, rows => change dotted rows
  | key :: path, _, rows =>
    match find? key rows with
    -- tables on the way are implied; a header may still open them
    | none => (edit byRow change path byRow []).map fun inner =>
        put key (.table true byRow inner) rows
    | some (.value _) => none
    | some (.table implied dotted inner) =>
      -- a row does not reach into a table that has a header of its own
      if byRow && !implied then none
      else (edit byRow change path dotted inner).map fun inner =>
        put key (.table implied dotted inner) rows
    | some (.tables items) =>
      match items.getLast? with
      | none => none
      | some last => (edit byRow change path false last).map fun last =>
          put key (.tables (items.dropLast ++ [last])) rows

/-- Adds a row under a path of keys; a key with points goes to a table named by rows. -/
def addRow? (key : List String) (d : Document) (rows : Entries) : Option Entries :=
  match key.getLast? with
  | none => none
  | some last =>
    let path := key.dropLast
    edit true (fun dotted inner =>
      if dotted == path.isEmpty then none
      else if (find? last inner).isSome then none
      else some (put last (.value d) inner)) path false rows

/-- Opens the table of a header. -/
def openTable? (key : List String) (rows : Entries) : Option Entries :=
  match key.getLast? with
  | none => none
  | some last =>
    edit false (fun _ inner =>
      match find? last inner with
      | none => some (put last (.table false false []) inner)
      | some (.table true false kept) => some (put last (.table false false kept) inner)
      | some _ => none) key.dropLast false rows

/-- Opens one more table under the header of a list of tables. -/
def openItem? (key : List String) (rows : Entries) : Option Entries :=
  match key.getLast? with
  | none => none
  | some last =>
    edit false (fun _ inner =>
      match find? last inner with
      | none => some (put last (.tables [[]]) inner)
      | some (.tables items) => some (put last (.tables (items ++ [[]])) inner)
      | some _ => none) key.dropLast false rows

/-- Adds a row to the table opened last. -/
def addAt? (header : List String) (key : List String) (d : Document) (rows : Entries) :
    Option Entries :=
  edit false (fun _ inner => addRow? key d inner) header false rows

mutual

/-- What an entry has become when the text has ended. -/
def Entry.document : Entry → Document
  | .value d => d
  | .table _ _ rows => .table (documents rows)
  | .tables items => .list (documentLists items)

def documents : List (String × Entry) → List (String × Document)
  | [] => []
  | (key, e) :: rest => (key, e.document) :: documents rest

def documentLists : List (List (String × Entry)) → List Document
  | [] => []
  | rows :: rest => .table (documents rows) :: documentLists rest

end

/-! ## Values and expressions -/

mutual

/-- Reads a value that starts here; `room` is how much deeper it may go. -/
def value? : (fuel room : Nat) → List Char → Option (Document × List Char)
  | 0, _, _ => none
  | fuel + 1, room, cs =>
    match cs with
    | '"' :: _ => (string? cs).map fun (s, rest) => (.text s, rest)
    | '\'' :: _ => (string? cs).map fun (s, rest) => (.text s, rest)
    | '[' :: rest =>
      match room with
      | 0 => none
      | room + 1 => items? fuel room [] rest
    | '\x7b' :: rest =>
      match room, skip rest with
      | 0, _ => none
      | _, '\x7d' :: rest => some (.table [], rest)
      | room + 1, rest => fields? fuel room [] rest
    | _ => scalar? cs

/-- Reads the items of a list, over as many lines as it takes; a comma may follow the
last one. -/
def items? : (fuel room : Nat) → (done : List Document) → List Char →
    Option (Document × List Char)
  | 0, _, _, _ => none
  | fuel + 1, room, done, cs => do
    match ← skipLines? (cs.length + 1) cs with
    | ']' :: rest => some (.list done.reverse, rest)
    | cs =>
      let (d, rest) ← value? fuel room cs
      match ← skipLines? (rest.length + 1) rest with
      | ',' :: rest => items? fuel room (d :: done) rest
      | ']' :: rest => some (.list (d :: done).reverse, rest)
      | _ => none

/-- Reads the rows of a table within one line. -/
def fields? : (fuel room : Nat) → (done : Entries) → List Char → Option (Document × List Char)
  | 0, _, _, _ => none
  | fuel + 1, room, done, cs => do
    let (key, rest) ← key? cs
    match rest with
    | '=' :: rest =>
      let (d, rest) ← value? fuel room (skip rest)
      let done ← addRow? key d done
      match skip rest with
      | ',' :: rest => fields? fuel room done rest
      | '\x7d' :: rest => some (.table (documents done), rest)
      | _ => none
    | _ => none

end

/-- Reads the expressions of a text; `header` leads to the table opened last. -/
def expressions? : (fuel : Nat) → (header : List String) → Entries → List Char → Option Entries
  | 0, _, _, _ => none
  | fuel + 1, header, rows, cs => do
    match ← skipLines? (cs.length + 1) cs with
    | [] => some rows
    | '[' :: '[' :: rest =>
      let (key, rest) ← key? rest
      match rest with
      | ']' :: ']' :: rest =>
        let rows ← openItem? key rows
        expressions? fuel key rows (← endLine? rest)
      | _ => none
    | '[' :: rest =>
      let (key, rest) ← key? rest
      match rest with
      | ']' :: rest =>
        let rows ← openTable? key rows
        expressions? fuel key rows (← endLine? rest)
      | _ => none
    | cs =>
      let (key, rest) ← key? cs
      match rest with
      | '=' :: rest =>
        let (d, rest) ← value? (cs.length + 1) depthLimit (skip rest)
        let rows ← addAt? header key d rows
        expressions? fuel header rows (← endLine? rest)
      | _ => none

/-- Drops the mark of byte order, with which a text may begin. -/
def dropMark : List Char → List Char
  | '\ufeff' :: rest => rest
  | cs => cs

/-- Reads a text, which is always a table. -/
def read? (s : String) : Option Document :=
  let cs := dropMark s.toList
  (expressions? (cs.length + 1) [] [] cs).map fun rows => .table (documents rows)

end Troupe.Toml
