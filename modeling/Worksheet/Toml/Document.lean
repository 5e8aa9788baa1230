import Worksheet.Toml.Number
import Worksheet.Toml.Quoted
import Worksheet.Toml.Table

/-! # Settings files

  A file is a list of lines. A line gives a key its value, names the table that the keys after it
  belong to, or adds a table to an array. Arrays and inline tables nest to a limited depth.
-/

namespace Worksheet.Toml

/-! ### Values -/

/-- How many levels of arrays and inline tables a value may have. -/
def maxLevels : Nat := 79

/-- Characters that numbers, words, dates and times consist of. -/
def isScalarChar (c : Char) : Bool :=
  c.isAlphanum || ['+', '-', '_', '.', ':'].contains c

/-- The text of a scalar without marks. A blank between a date and a time belongs to it. -/
def scalarText (s : Text) : Text × Text :=
  let (first, rest) := s.span isScalarChar
  match rest with
  | ' ' :: a :: b :: ':' :: _ =>
    if a.isDigit && b.isDigit && (Reader.all date? first).isSome then
      let (second, rest) := (rest.drop 1).span isScalarChar
      (first ++ ' ' :: second, rest)
    else (first, rest)
  | _ => (first, rest)

/-- The value of a scalar without marks. -/
def scalar? (s : Text) : Option Value :=
  if s = "true".toList then some (.bool true)
  else if s = "false".toList then some (.bool false)
  else
    ((moment? .clock s).map .moment) <|> ((integer? s).map .int) <|> ((real? s).map .real)

/-- Something between an opening and a closing mark. -/
def enclosed {α : Type} (opening closing : Char) (p : Reader α) : Reader α := fun s => do
  let (_, s) ← Reader.expect [opening] s
  let (a, s) ← p s
  let (_, s) ← Reader.expect [closing] s
  return (a, s)

/-- Values with commas between them, over any number of lines. A comma may follow the last one. -/
def items? (p : Reader Value) : Reader (List Value) := fun s =>
  let item : Reader Value := fun s => (p (skipLines s)).map fun (v, s) => (v, skipLines s)
  match Reader.separated item (Reader.expect [',']) s with
  | none => some ([], skipLines s)
  | some (values, s) => some (values, skipLines (if s.head? = some ',' then s.drop 1 else s))

/-- A key and its value. -/
def pair? (p : Reader Value) : Reader (List Text × Value) := fun s => do
  let (key, s) ← key? s
  let (_, s) ← Reader.expect ['='] s
  let (v, s) ← p (skipBlanks s)
  return ((key, v), s)

/-- Keys and their values with commas between them, on one line. -/
def pairs? (p : Reader Value) : Reader (List (List Text × Value)) := fun s =>
  let pair : Reader (List Text × Value) := fun s =>
    (pair? p s).map fun (kv, s) => (kv, skipBlanks s)
  match Reader.separated pair (Reader.expect [',']) s with
  | none => some ([], skipBlanks s)
  | some (values, s) => some (values, s)

/-- An inline table of keys and their values. -/
def inline? (pairs : List (List Text × Value)) : Option Value :=
  (pairs.foldlM (fun entries (key, v) => Entry.assign? v key entries) []).map fun entries =>
    .table (Entry.finishEntries entries)

/-- A value that may have so many levels of arrays and inline tables. -/
def value? : (levels : Nat) → Reader Value
  | levels, s =>
    match s.head? with
    | some '"' | some '\x27' => (quoted? s).map fun (text, s) => (.text text, s)
    | some '[' =>
      match levels with
      | 0 => none
      | inner + 1 => (enclosed '[' ']' (items? (value? inner)) s).map fun (v, s) => (.list v, s)
    | some '\x7b' =>
      match levels with
      | 0 => none
      | inner + 1 => do
        let (pairs, s) ← enclosed '\x7b' '\x7d' (pairs? (value? inner)) s
        return (← inline? pairs, s)
    | _ =>
      let (text, s) := scalarText s
      (scalar? text).map (·, s)

/-! ### Lines -/

inductive Line where
  | blank
  | assign (key : List Text) (v : Value)
  /-- The header of a table. -/
  | header (key : List Text)
  /-- The header of one table of an array. -/
  | element (key : List Text)

/-- What is on a line. -/
def content? (s : Text) : Option (Line × Text) :=
  match skipBlanks s with
  | '[' :: '[' :: s => do
    let (key, s) ← key? s
    let (_, s) ← Reader.expect [']', ']'] s
    return (.element key, s)
  | '[' :: s => do
    let (key, s) ← key? s
    let (_, s) ← Reader.expect [']'] s
    return (.header key, s)
  | [] => some (.blank, [])
  | c :: s =>
    if c = '#' ∨ (lineEnd? (c :: s)).isSome then some (.blank, c :: s)
    else (pair? (value? maxLevels) (c :: s)).map fun ((key, v), s) => (.assign key v, s)

/-- A line with its comment and its end; the last line needs no end. -/
def line? (s : Text) : Option (Line × Text) := do
  let (line, s) ← content? s
  match skipComment s with
  | [] => return (line, [])
  | rest => return (line, ← lineEnd? rest)

/-! ### Files -/

/-- A file as far as it has been read: its tables, and the one that keys belong to. -/
structure Draft where
  root : List (Text × Entry) := []
  here : List Text := []

/-- Splits a key into the way to its last part and that part. -/
def lastPart? (key : List Text) : Option (List Text × Text) :=
  key.getLast?.map (key.dropLast, ·)

/-- Takes a line into account. -/
def Draft.add? (d : Draft) : Line → Option Draft
  | .blank => some d
  | .assign key v => (Entry.within? (Entry.assign? v key) d.here d.root).map ({ d with root := · })
  | .header key => do
    let (names, name) ← lastPart? key
    return ⟨← Entry.within? (Entry.head? name) names d.root, key⟩
  | .element key => do
    let (names, name) ← lastPart? key
    return ⟨← Entry.within? (Entry.extend? name) names d.root, key⟩

/-- Reads lines to the end of a text. -/
def lines? (s : Text) (d : Draft) : Option Draft :=
  if s = [] then some d
  else
    match line? s with
    | none => none
    | some (line, rest) =>
      match d.add? line with
      | none => none
      | some d => if rest.length < s.length then lines? rest d else some d
termination_by s.length

/-- Reads a file: its entries, unless it is not well formed. A byte order mark at its start does not
    count. -/
def parse? (s : Text) : Option (List (Text × Setting)) := do
  let d ← lines? (if s.head? = some '\uFEFF' then s.drop 1 else s) {}
  match ← (Value.table (Entry.finishEntries d.root)).toSetting? with
  | .table entries => return entries
  | _ => none

end Worksheet.Toml
