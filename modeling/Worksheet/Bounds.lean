import Worksheet.Rendering

/-! # Bounds

  Bounds say where the content of every area lies in the written form of a document. They are found
  by a search from left to right: a cursor stands in the written text, the written form of the next
  area is sought from there on, and the cursor moves behind it. So of two areas with one content
  each gets the place that its order in the document demands. The children of a container are
  sought the same way from where the container's content begins.
-/

namespace Worksheet

/-! ### Errors -/

/-- Why bounds cannot be found. -/
inductive BoundsError where
  /-- An area is not in the text behind the cursor. -/
  | notFound (id : AreaId) (kind : AreaKind) (cursor : Nat)
deriving DecidableEq

def BoundsError.message : BoundsError → String
  | notFound id kind cursor =>
    kind.name ++ " area " ++ String.ofList id.display ++ " not found in serialized text after byte "
      ++ toString cursor

/-! ### Cursors -/

/-- A place in a text: what has been passed, in bytes and as a position, and what follows. -/
structure Cursor where
  offset : Nat
  position : Position
  rest : Text
deriving DecidableEq

namespace Cursor

/-- The start of a text. -/
def start (s : Text) : Cursor := ⟨0, .zero, s⟩

/-- The cursor behind `passed`, which the rest begins with. -/
def advance (c : Cursor) (passed : Text) : Cursor :=
  ⟨c.offset + passed.utf8Length, c.position.advance passed, c.rest.drop passed.length⟩

/-- The first place at or behind the cursor where `needle` begins. -/
def seek? (c : Cursor) (needle : Text) : Option Cursor :=
  (Text.cut? needle c.rest).map fun (before, _) => c.advance before

/-- The range from one cursor to a later one. -/
def rangeTo (c d : Cursor) : Range := ⟨⟨c.offset, d.offset⟩, c.position, d.position⟩

end Cursor

/-- A written area that has been found: the cursors at the start of its content, at the end of it,
    and behind the area. -/
structure Found where
  start : Cursor
  stop : Cursor
  after : Cursor

def Found.range (f : Found) : Range := f.start.rangeTo f.stop

/-- Seeks a written area from a cursor on. -/
def Rendered.seek? (r : Rendered) (c : Cursor) : Option Found :=
  (c.seek? r.text).map fun here =>
    let start := here.advance r.opening
    let stop := start.advance r.body
    ⟨start, stop, stop.advance r.closing⟩

/-! ### Tables -/

/-- The range of an area and of each of its children. -/
structure Bounds where
  id : AreaId
  range : Range
  children : List (AreaId × Range)
deriving DecidableEq

/-- The bounds of a list of areas, in document order. -/
structure BoundsTable where
  areas : List Bounds
deriving DecidableEq

namespace BoundsTable

/-- All ranges, that of a container before those of its children. -/
def entries (t : BoundsTable) : List (AreaId × Range) :=
  t.areas.flatMap fun b => (b.id, b.range) :: b.children

/-- The first range under an identifier. -/
def get? (t : BoundsTable) (id : AreaId) : Option Range :=
  (t.entries.find? (·.1 = id)).map (·.2)

def size (t : BoundsTable) : Nat :=
  (t.areas.map fun b => 1 + b.children.length).foldl (· + ·) 0

def isEmpty (t : BoundsTable) : Bool := t.areas.isEmpty

end BoundsTable

/-! ### The search -/

/-- Bounds of leaves from a cursor on. -/
def Leaf.bounds (g : OutputGrammar) : List Leaf → Cursor → Except BoundsError (List (AreaId × Range))
  | [], _ => .ok []
  | l :: rest, c =>
    match (l.render g).seek? c with
    | none => .error (.notFound l.id l.kind.areaKind c.offset)
    | some found => do
      let others ← Leaf.bounds g rest found.after
      return (l.id, found.range) :: others

/-- Bounds of areas from a cursor on. -/
def Area.boundsFrom (g : OutputGrammar) : List Area → Cursor → Except BoundsError (List Bounds)
  | [], _ => .ok []
  | a :: rest, c =>
    match (a.render g).seek? c with
    | none => .error (.notFound a.id a.kind c.offset)
    | some found => do
      let children ← Leaf.bounds g a.children found.start
      let others ← Area.boundsFrom g rest found.after
      return ⟨a.id, found.range, children⟩ :: others

/-- Bounds of areas in their own written form. -/
def Area.bounds (g : OutputGrammar) (areas : List Area) : Except BoundsError BoundsTable :=
  (Area.boundsFrom g areas (.start (Area.write g areas))).map BoundsTable.mk

end Worksheet
