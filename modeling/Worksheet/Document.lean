import Worksheet.Bounds

/-! # Documents

  A document is an ordered list of areas with the uri of its file and the output grammar it is
  written in. Ranges describe the current areas under the current grammar or are absent: a change
  of the grammar finds them anew, and access to the areas for editing drops them first.
-/

namespace Worksheet

/-- A worksheet that has been opened. -/
structure Document where
  uri : Text
  areas : List Area := []
  grammar : OutputGrammar := .coqmd
  /-- Whether the ranges on the areas are those of the current areas and grammar. -/
  boundsValid : Bool := false
deriving DecidableEq

/-- Puts the ranges of a table on leaves, by order. -/
def Leaf.place : List Leaf → List (AreaId × Range) → List Leaf
  | l :: rest, b :: bs => { l with range := some b.2 } :: Leaf.place rest bs
  | leaves, _ => leaves

/-- Puts the ranges of a table on areas, by order. -/
def Area.place : List Area → List Bounds → List Area
  | .leaf l :: rest, b :: bs => .leaf { l with range := some b.range } :: Area.place rest bs
  | .container c :: rest, b :: bs =>
    .container { c with range := some b.range, children := Leaf.place c.children b.children } ::
      Area.place rest bs
  | areas, _ => areas

namespace Document

/-! ### Ranges -/

/-- Drops every range. -/
def invalidate (d : Document) : Document :=
  { d with areas := d.areas.map Area.clearRanges, boundsValid := false }

/-- Finds the ranges of all areas for the current grammar. -/
def updateBounds (d : Document) : Document × Option BoundsError :=
  match Area.bounds d.grammar d.areas with
  | .ok table => ({ d with areas := Area.place d.areas table.areas, boundsValid := true }, none)
  | .error e => (d.invalidate, some e)

/-! ### Changes -/

/-- The document with other areas. -/
def withAreas (d : Document) (areas : List Area) : Document := { d with areas }.invalidate

def push (d : Document) (area : Area) : Document := d.withAreas (d.areas ++ [area])

/-- Edits the list of areas. The ranges are dropped before the edit sees the areas. -/
def edit (d : Document) (change : List Area → List Area) : Document :=
  let d := d.invalidate
  { d with areas := change d.areas }

/-- Changes the output grammar and finds the ranges anew. -/
def setGrammar (d : Document) (grammar : OutputGrammar) : Document × Option BoundsError :=
  ({ d with grammar }.invalidate).updateBounds

/-! ### Written form -/

/-- The document written in another grammar. -/
def writeIn (d : Document) (grammar : OutputGrammar) : Text := Area.write grammar d.areas

/-- The document written in its own grammar. -/
def write (d : Document) : Text := d.writeIn d.grammar

end Document

/-! ### Entries -/

/-- An area with its place in a document: at the top level, or a leaf in a container. -/
inductive Entry where
  | top (area : Area)
  | child (parent : Container) (leaf : Leaf)
deriving DecidableEq

namespace Entry

def id : Entry → AreaId
  | top a => a.id
  | child _ l => l.id

def kind : Entry → AreaKind
  | top a => a.kind
  | child _ l => l.kind.areaKind

def content : Entry → Text
  | top a => a.content
  | child _ l => l.content

def range : Entry → Option Range
  | top a => a.range
  | child _ l => l.range

/-- The container that holds the area. -/
def parent? : Entry → Option AreaId
  | top _ => none
  | child c _ => some c.id

/-- Byte offset into the content of a leaf. A container has no offsets: its title is not inside
    its range. -/
def offsetOf? (e : Entry) (p : Position) : Option Nat := do
  if e.kind.isContainer then none else Text.offsetIn? e.content (← e.range) p

/-- Position of a byte offset into the content of a leaf. -/
def positionOf? (e : Entry) (offset : Nat) : Option Position := do
  if e.kind.isContainer then none else Text.positionIn? e.content (← e.range) offset

end Entry

/-- An area followed by its children. -/
def Area.entries : Area → List Entry
  | .leaf l => [.top (.leaf l)]
  | .container c => .top (.container c) :: c.children.map (.child c)

/-- Which container holds which child: every child once, with its last container. -/
structure ParentIndex where
  parents : List (AreaId × AreaId)

namespace ParentIndex

/-- Sets the container of a child. -/
def insert (t : ParentIndex) (child parent : AreaId) : ParentIndex :=
  ⟨(child, parent) :: t.parents.filter (·.1 ≠ child)⟩

def get? (t : ParentIndex) (child : AreaId) : Option AreaId :=
  (t.parents.find? (·.1 = child)).map (·.2)

def size (t : ParentIndex) : Nat := t.parents.length

def isEmpty (t : ParentIndex) : Bool := t.parents.isEmpty

end ParentIndex

namespace Document

/-- Every area in document order, a container before its children. -/
def entries (d : Document) : List Entry := d.areas.flatMap Area.entries

/-- The ranges of all areas in document order. -/
def ranges (d : Document) : List (AreaId × Option Range) := d.entries.map fun e => (e.id, e.range)

/-- Whether the ranges fit the written form: every area has one, it lies within the text, and that
    of a leaf cuts out its content. -/
def rangesFit (d : Document) : Bool :=
  let source := d.write
  d.boundsValid && d.entries.all fun e =>
    match e.range with
    | none => false
    | some ⟨⟨start, stop⟩, _, _⟩ =>
      decide (start ≤ stop) && decide (stop ≤ source.utf8Length) &&
        (e.kind.isContainer || Text.slice? source start stop == some e.content)

/-- The first area of that identifier. -/
def find? (d : Document) (id : AreaId) : Option Entry := d.entries.find? (·.id = id)

/-- The container of the first child of that identifier. -/
def parentOf? (d : Document) (id : AreaId) : Option AreaId :=
  d.entries.findSome? fun e => if e.id = id then e.parent? else none

/-- All containers of children at once. -/
def parentIndex (d : Document) : ParentIndex :=
  d.entries.foldl (fun t e => match e.parent? with
    | some parent => t.insert e.id parent
    | none => t) ⟨[]⟩

/-! ### Lookup by position -/

/-- The first child held by `test`, else the first that contains the position with its ends. -/
def childAt? (p : Position) (test : Range → Position → Bool) (leaves : List Leaf) : Option Leaf :=
  let holds (test : Range → Position → Bool) (l : Leaf) := l.range.any (test · p)
  leaves.find? (holds test) <|> leaves.find? (holds Range.contains)

/-- Within the first area at the top level that `test` holds of, the child at the position, or the
    area itself. -/
def locate? (d : Document) (p : Position) (test : Range → Position → Bool) : Option Entry :=
  (d.areas.find? fun a => a.range.any (test · p)).map fun
    | .leaf l => .top (.leaf l)
    | .container c =>
      match childAt? p test c.children with
      | some l => .child c l
      | none => .top (.container c)

/-- The innermost area whose range contains the position; the first of several. -/
def areaAt? (d : Document) (p : Position) : Option Entry := d.locate? p Range.contains

/-- The innermost area that holds the character at the position. On the border of two areas that is
    the one which begins there; only where no area holds it, ends count as in `areaAt?`. -/
def areaStartingAt? (d : Document) (p : Position) : Option Entry :=
  d.locate? p Range.containsHalfOpen <|> d.areaAt? p

/-- Byte offset into the content of a leaf. -/
def offsetOf? (d : Document) (id : AreaId) (p : Position) : Option Nat := do
  (← d.find? id).offsetOf? p

/-- Position of a byte offset into the content of a leaf. -/
def positionOf? (d : Document) (id : AreaId) (offset : Nat) : Option Position := do
  (← d.find? id).positionOf? offset

end Document

end Worksheet
