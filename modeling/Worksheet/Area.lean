import Worksheet.AreaId

/-! # Areas

  A worksheet is a list of areas. A leaf is a run of prose, proof code or displayed mathematics. A
  container groups leaves: a collapsible has a title and can be folded away, an input is where a
  student works and has a grade. Containers hold leaves only, so no container sits in another.

  The range of an area is derived from the written document and may be absent. A shape is an area
  without its identifier and range: what reading a text yields and what writing it needs.
-/

namespace Worksheet

/-! ### Kinds -/

/-- The kinds of leaf. -/
inductive LeafKind where
  | text
  | code
  | math
deriving DecidableEq

/-- All kinds of area. -/
inductive AreaKind where
  | text
  | code
  | math
  | collapsible
  | input
deriving DecidableEq

/-- How the work in an input has been graded. -/
inductive Grade where
  | correct
  | incorrect
  | unattempted
deriving DecidableEq

/-- Why something is refused where only a leaf fits. -/
inductive NotALeaf where
  /-- The kind is that of a container. -/
  | containerKind
  /-- The area is a collapsible. -/
  | collapsible
  /-- The area is an input. -/
  | input
deriving DecidableEq

def NotALeaf.message : NotALeaf → String
  | containerKind => "containers are not leaf kinds"
  | collapsible => "Collapsible areas cannot be nested"
  | input => "Input areas cannot be nested"

namespace LeafKind

def areaKind : LeafKind → AreaKind
  | text => .text
  | code => .code
  | math => .math

end LeafKind

namespace AreaKind

def name : AreaKind → String
  | text => "text"
  | code => "code"
  | math => "math"
  | collapsible => "collapsible"
  | input => "input"

/-- The kind of that exact name. -/
def ofName? (name : String) : Option AreaKind :=
  [text, code, math, collapsible, input].find? (·.name == name)

def isContainer : AreaKind → Bool
  | collapsible | input => true
  | text | code | math => false

def toLeafKind : AreaKind → Except NotALeaf LeafKind
  | text => .ok .text
  | code => .ok .code
  | math => .ok .math
  | collapsible | input => .error .containerKind

end AreaKind

namespace Grade

def name : Grade → String
  | correct => "correct"
  | incorrect => "incorrect"
  | unattempted => "unattempted"

/-- The grade of that exact name. -/
def ofName? (name : String) : Option Grade :=
  [correct, incorrect, unattempted].find? (·.name == name)

end Grade

/-! ### Shapes -/

/-- A leaf without identifier and range. -/
structure LeafShape where
  kind : LeafKind
  content : Text
deriving DecidableEq

/-- What a container is, its children apart. -/
inductive Heading where
  | collapsible (title : Text)
  | input (grade : Grade)
deriving DecidableEq

def Heading.kind : Heading → AreaKind
  | collapsible _ => .collapsible
  | input _ => .input

/-- An area without identifiers and ranges. -/
inductive Shape where
  | leaf (leaf : LeafShape)
  | container (heading : Heading) (children : List LeafShape)
deriving DecidableEq

/-! ### Areas -/

structure Leaf where
  id : AreaId
  kind : LeafKind
  content : Text
  range : Option Range := none
deriving DecidableEq

structure Container where
  id : AreaId
  heading : Heading
  children : List Leaf := []
  range : Option Range := none
deriving DecidableEq

/-- An area at the top level of a document. -/
inductive Area where
  | leaf (leaf : Leaf)
  | container (container : Container)
deriving DecidableEq

namespace Leaf

def shape (l : Leaf) : LeafShape := ⟨l.kind, l.content⟩

/-- Replaces the content; the range of the old content is dropped. -/
def setContent (l : Leaf) (content : Text) : Leaf := { l with content, range := none }

end Leaf

namespace Container

def shape (c : Container) : Shape := .container c.heading (c.children.map Leaf.shape)

/-- Replaces the title of a collapsible and drops the range; an input has none and stays. -/
def setTitle (c : Container) (title : Text) : Container :=
  match c.heading with
  | .collapsible _ => { c with heading := .collapsible title, range := none }
  | .input _ => c

/-- Replaces the grade of an input; it is not part of the written text, so the range stays. -/
def setGrade (c : Container) (grade : Grade) : Container :=
  match c.heading with
  | .collapsible _ => c
  | .input _ => { c with heading := .input grade }

/-- Adds a leaf at the end and drops the range. -/
def push (c : Container) (leaf : Leaf) : Container :=
  { c with children := c.children ++ [leaf], range := none }

/-- Adds an area at the end if it is a leaf; the flag says whether it was. -/
def add (c : Container) : Area → Container × Bool
  | .leaf leaf => (c.push leaf, true)
  | .container _ => (c, false)

end Container

namespace Area

def id : Area → AreaId
  | leaf l => l.id
  | container c => c.id

def kind : Area → AreaKind
  | leaf l => l.kind.areaKind
  | container c => c.heading.kind

def children : Area → List Leaf
  | leaf _ => []
  | container c => c.children

def range : Area → Option Range
  | leaf l => l.range
  | container c => c.range

def isContainer (a : Area) : Bool := a.kind.isContainer

/-- The content of a leaf, the title of a collapsible, nothing for an input. -/
def content : Area → Text
  | leaf l => l.content
  | container c =>
    match c.heading with
    | .collapsible title => title
    | .input _ => []

def shape : Area → Shape
  | leaf l => .leaf l.shape
  | container c => c.shape

def toLeaf : Area → Except NotALeaf Leaf
  | leaf l => .ok l
  | container c =>
    match c.heading with
    | .collapsible _ => .error .collapsible
    | .input _ => .error .input

/-- The area with no range on it or on its children. -/
def clearRanges : Area → Area
  | leaf l => .leaf { l with range := none }
  | container c =>
    .container { c with range := none, children := c.children.map ({ · with range := none }) }

end Area

/-! ### Numbering

    Identifiers are given in document order, to a container before its children. -/

/-- Numbers leaves from the left. -/
def Leaf.number : List LeafShape → IdCounter → List Leaf × IdCounter
  | [], ids => ([], ids)
  | s :: rest, ids =>
    let (id, ids) := ids.fresh
    let (leaves, ids) := Leaf.number rest ids
    (⟨id, s.kind, s.content, none⟩ :: leaves, ids)

/-- Numbers one area. -/
def Area.numberOne : Shape → IdCounter → Area × IdCounter
  | .leaf s, ids =>
    let (id, ids) := ids.fresh
    (.leaf ⟨id, s.kind, s.content, none⟩, ids)
  | .container heading children, ids =>
    let (id, ids) := ids.fresh
    let (children, ids) := Leaf.number children ids
    (.container ⟨id, heading, children, none⟩, ids)

/-- Numbers areas from the left. -/
def Area.number : List Shape → IdCounter → List Area × IdCounter
  | [], ids => ([], ids)
  | s :: rest, ids =>
    let (area, ids) := Area.numberOne s ids
    let (areas, ids) := Area.number rest ids
    (area :: areas, ids)

end Worksheet
