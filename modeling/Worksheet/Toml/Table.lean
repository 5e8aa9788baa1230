import Worksheet.Toml.Value

/-! # Tables under construction

  A file fills its tables bit by bit, and what a line may add to a table depends on how the table
  came about. A table that only lies on the way of a header may get a header of its own later. One
  that a dotted key has made may only get more keys of that sort. One with a header of its own may
  get another one never. An array of tables is filled by headers alone, and a key that leads through
  it leads into its last table.
-/

namespace Worksheet.Toml

/-- How a table came about. -/
inductive Origin where
  /-- It lies on the way of a header. -/
  | passed
  /-- It lies on the way of a dotted key. -/
  | dotted
  /-- It has a header of its own. -/
  | headed
deriving DecidableEq

/-- What a table that is still being filled holds under a name. -/
inductive Entry where
  | value (v : Value)
  | table (origin : Origin) (entries : List (Text × Entry))
  /-- The tables of an array, the last one first. -/
  | array (tables : List (List (Text × Entry)))

namespace Entry

/-- What a table holds under a name. -/
def lookup? (entries : List (Text × Entry)) (name : Text) : Option Entry :=
  (entries.find? (·.1 == name)).map (·.2)

/-- Puts something under a name; a name that is new comes last. -/
def insert (name : Text) (e : Entry) : List (Text × Entry) → List (Text × Entry)
  | [] => [(name, e)]
  | (other, old) :: rest =>
    if other = name then (other, e) :: rest else (other, old) :: insert name e rest

/-! ### Keys with values -/

/-- Puts a value at the end of a dotted key. The name must be new, and the table it goes into must
    be the one at hand or one that dotted keys have made. -/
def assign? (v : Value) : (parts : List Text) → List (Text × Entry) →
    Option (List (Text × Entry))
  | [], _ => none
  | [name], entries => if (lookup? entries name).isSome then none else some (insert name (value v) entries)
  | name :: rest, entries =>
    let isLast := rest.length = 1
    match lookup? entries name with
    | none => (assign? v rest []).map fun inner => insert name (.table .dotted inner) entries
    | some (.table .dotted inner) =>
      (assign? v rest inner).map fun inner => insert name (.table .dotted inner) entries
    | some (.table .passed inner) =>
      if isLast then none
      else (assign? v rest inner).map fun inner => insert name (.table .passed inner) entries
    | some (.array (inner :: others)) =>
      if isLast then none
      else (assign? v rest inner).map fun inner => insert name (.array (inner :: others)) entries
    | some _ => none

/-! ### Headers -/

/-- Changes the table that the names of a header lead to, from the outermost in. Tables that are
    missing on the way are made. -/
def within? (f : List (Text × Entry) → Option (List (Text × Entry))) :
    (names : List Text) → List (Text × Entry) → Option (List (Text × Entry))
  | [], entries => f entries
  | name :: rest, entries =>
    match lookup? entries name with
    | none => (within? f rest []).map fun inner => insert name (.table .passed inner) entries
    | some (.table origin inner) =>
      (within? f rest inner).map fun inner => insert name (.table origin inner) entries
    | some (.array (inner :: others)) =>
      (within? f rest inner).map fun inner => insert name (.array (inner :: others)) entries
    | some _ => none

/-- A table without what it holds under a name. -/
def remove (name : Text) (entries : List (Text × Entry)) : List (Text × Entry) :=
  entries.filter (·.1 != name)

/-- Gives a table its header. It then comes behind all others that are there so far. -/
def head? (name : Text) (entries : List (Text × Entry)) : Option (List (Text × Entry)) :=
  match lookup? entries name with
  | none => some (insert name (.table .headed []) entries)
  | some (.table .passed inner) => some (insert name (.table .headed inner) (remove name entries))
  | some _ => none

/-- Adds a table to an array. -/
def extend? (name : Text) (entries : List (Text × Entry)) : Option (List (Text × Entry)) :=
  match lookup? entries name with
  | none => some (insert name (.array [[]]) entries)
  | some (.array tables) => some (insert name (.array ([] :: tables)) entries)
  | some _ => none

/-! ### Finished tables -/

mutual

/-- The value of an entry once everything is filled. -/
def finish : Entry → Value
  | value v => v
  | table _ entries => .table (finishEntries entries)
  | array tables => .list (finishTables tables).reverse

def finishEntries : List (Text × Entry) → List (Text × Value)
  | [] => []
  | (name, e) :: rest => (name, e.finish) :: finishEntries rest

def finishTables : List (List (Text × Entry)) → List Value
  | [] => []
  | entries :: rest => .table (finishEntries entries) :: finishTables rest

end

end Entry

end Worksheet.Toml
