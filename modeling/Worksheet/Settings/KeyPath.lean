import Worksheet.Settings.Setting

/-! # Key paths

  A key path leads into a settings value: names after dots lead into tables, numbers in brackets
  into lists, where a negative number counts from the end. Setting the value at a path makes the
  tables and lists that the path needs, in place of whatever is there. A table that is set is merged
  with the one that is there; every other value takes the place of the old one. Names are put into
  tables in lower case, so that two that differ only in case are one. What is set as part of a list
  is kept as it is.
-/

namespace Worksheet

/-- One step of a path. -/
inductive KeyStep where
  | name (name : Text)
  | index (index : Int)
deriving DecidableEq

/-- A path begins with a name. -/
structure KeyPath where
  first : Text
  steps : List KeyStep := []
deriving DecidableEq

namespace KeyPath

/-! ### Reading -/

/-- Characters of a name. -/
def isNameChar (c : Char) : Bool := c.isAlphanum || c == ' ' || c == '_' || c == '-'

def isSpace (c : Char) : Bool := c == ' ' || c == '\t'

/-- An index, with blanks around it. -/
def index? (s : Text) : Option Int :=
  let s := ((s.dropWhile isSpace).reverse.dropWhile isSpace).reverse
  let bounded (limit : Nat) (digits : Text) : Option Nat :=
    (Digits.number? 10 digits).filter (· ≤ limit)
  match s with
  | '-' :: digits => (bounded (Nat.pow 2 63) digits).map fun n => - (n : Int)
  | digits => (bounded (Nat.pow 2 63 - 1) digits).map Int.ofNat

/-- The step at the start of a text, and what follows it. -/
def step? : Text → Option (KeyStep × Text)
  | '.' :: s =>
    match s.span isNameChar with
    | ([], _) => none
    | (name, rest) => some (.name name, rest)
  | '[' :: s =>
    match s.span (· ≠ ']') with
    | (inside, _ :: rest) => (index? inside).map (.index ·, rest)
    | (_, []) => none
  | _ => none

/-- The steps that a text consists of. -/
def steps? (s : Text) : Option (List KeyStep) :=
  if s = [] then some []
  else
    match step? s with
    | none => none
    | some (step, rest) =>
      if rest.length < s.length then (steps? rest).map (step :: ·) else none
termination_by s.length

/-- Reads a path. -/
def parse? (s : Text) : Option KeyPath :=
  match s.span isNameChar with
  | ([], _) => none
  | (first, rest) => (steps? rest).map fun steps => ⟨first, steps⟩

/-! ### Setting values -/

mutual

/-- What is at a place once `incoming` is put there: tables are merged, other values replaced. -/
def merge (incoming : Setting) (old : Option Setting) : Setting :=
  match incoming with
  | .table entries =>
    match old with
    | some old => if entries.isEmpty then old else .table (mergeAll entries old.entries)
    | none => .table (mergeAll entries [])
  | value => value

/-- Puts every entry of a table into another one. -/
def mergeAll (incoming : List (Text × Setting)) (entries : List (Text × Setting)) :
    List (Text × Setting) :=
  match incoming with
  | [] => entries
  | (name, value) :: rest =>
    let name := name.asciiLower
    mergeAll rest (Setting.insert name (merge value (Setting.lookup? entries name)) entries)

end

/-- How many items a list has at most. -/
def maxItems : Nat := Nat.pow 2 32

/-- The place that an index means in a list of some length. There is none before its start, nor
    where a list cannot reach. -/
def place? (index : Int) (length : Nat) : Option Nat :=
  if 0 ≤ index then (some index.toNat).filter (· < maxItems)
  else if index.natAbs ≤ length then some (length - index.natAbs)
  else none

/-- Puts an item at a place. A list that is too short is filled up with absent values. -/
def setItem (place : Nat) (value : Setting) (items : List Setting) : List Setting :=
  if place < items.length then items.set place value
  else items ++ List.replicate (place - items.length) .absent ++ [value]

/-- The items of a list; other values have none. -/
def items : Setting → List Setting
  | .list items => items
  | _ => []

/-- Puts a value at the end of some steps; `none` if an index has no place. -/
def putAt? (value : Setting) : List KeyStep → Option Setting → Option Setting
  | [], old => some (merge value old)
  | .name name :: rest, old => do
    let name := name.asciiLower
    let entries := (old.map Setting.entries).getD []
    let inner ← putAt? value rest (Setting.lookup? entries name)
    return .table (Setting.insert name inner entries)
  | [.index i], old => do
    let items := (old.map items).getD []
    return .list (setItem (← place? i items.length) value items)
  | .index i :: rest, old => do
    let items := (old.map items).getD []
    let place ← place? i items.length
    let inner ← putAt? value rest (some (items[place]?.getD .absent))
    return .list (setItem place inner items)

/-- Puts a value at a path. -/
def put? (path : KeyPath) (value : Setting) (entries : List (Text × Setting)) :
    Option (List (Text × Setting)) := do
  let name := path.first.asciiLower
  let inner ← putAt? value path.steps (Setting.lookup? entries name)
  return Setting.insert name inner entries

end KeyPath

end Worksheet
