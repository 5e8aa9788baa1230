import Worksheet.Area

/-! # Numbering

  Numbering gives every shape an identifier and no range, and changes nothing else. Which
  identifiers it gives does not depend on any content or title, so it goes along with a change of
  those (`Area.number_map_mapText`).
-/

namespace Worksheet

/-- The identifiers of an area and of its children. -/
def Area.ids (a : Area) : List AreaId := a.id :: a.children.map Leaf.id

/-! ### What numbering leaves alone -/

theorem Leaf.map_shape_number (shapes : List LeafShape) (ids : IdCounter) :
    (Leaf.number shapes ids).1.map Leaf.shape = shapes := by
  induction shapes generalizing ids with
  | nil => rfl
  | cons s rest ih => exact congrArg (s :: ·) (ih _)

theorem Area.shape_numberOne (s : Shape) (ids : IdCounter) :
    (Area.numberOne s ids).1.shape = s := by
  cases s with
  | leaf s => rfl
  | container heading children =>
    exact congrArg (Shape.container heading) (Leaf.map_shape_number children _)

/-- Numbered areas have the shapes that were numbered. -/
@[simp] theorem Area.map_shape_number (shapes : List Shape) (ids : IdCounter) :
    (Area.number shapes ids).1.map Area.shape = shapes := by
  induction shapes generalizing ids with
  | nil => rfl
  | cons s rest ih =>
    show (Area.numberOne s ids).1.shape :: (Area.number rest _).1.map Area.shape = s :: rest
    rw [Area.shape_numberOne, ih]

/-! ### Numbering part after part -/

/-- Areas one after the other are numbered one after the other. -/
theorem Area.number_append (shapes others : List Shape) (ids : IdCounter) :
    Area.number (shapes ++ others) ids =
      ((Area.number shapes ids).1 ++ (Area.number others (Area.number shapes ids).2).1,
        (Area.number others (Area.number shapes ids).2).2) := by
  induction shapes generalizing ids with
  | nil => rfl
  | cons s rest ih =>
    simp only [List.cons_append, number, ih]

/-- Leaves are numbered in the same way inside a container and outside. -/
theorem Area.number_map_leaf (leaves : List LeafShape) (ids : IdCounter) :
    Area.number (leaves.map Shape.leaf) ids =
      ((Leaf.number leaves ids).1.map Area.leaf, (Leaf.number leaves ids).2) := by
  induction leaves generalizing ids with
  | nil => rfl
  | cons l rest ih =>
    simp only [List.map_cons, number, numberOne, Leaf.number, ih]

/-! ### Changes of contents and titles -/

section

variable (f : Text → Text)

/-- The leaf with its content changed. -/
def LeafShape.mapText (s : LeafShape) : LeafShape := { s with content := f s.content }

/-- The heading with its title changed. -/
def Heading.mapText : Heading → Heading
  | collapsible title => .collapsible (f title)
  | input grade => .input grade

/-- The shape with its contents and titles changed. -/
def Shape.mapText : Shape → Shape
  | leaf s => .leaf (s.mapText f)
  | container heading children =>
    .container (heading.mapText f) (children.map (LeafShape.mapText f))

/-- The leaf with its content changed. -/
def Leaf.mapText (l : Leaf) : Leaf := { l with content := f l.content }

/-- The area with its contents and titles changed, and all else as it is. -/
def Area.mapText : Area → Area
  | leaf l => .leaf (l.mapText f)
  | container c =>
    .container { c with
      heading := c.heading.mapText f
      children := c.children.map (Leaf.mapText f) }

theorem Leaf.number_map_mapText (shapes : List LeafShape) (ids : IdCounter) :
    Leaf.number (shapes.map (LeafShape.mapText f)) ids =
      ((Leaf.number shapes ids).1.map (Leaf.mapText f), (Leaf.number shapes ids).2) := by
  induction shapes generalizing ids with
  | nil => rfl
  | cons s rest ih =>
    simp only [List.map_cons, number, ih]
    rfl

theorem Area.numberOne_mapText (s : Shape) (ids : IdCounter) :
    Area.numberOne (s.mapText f) ids =
      ((Area.numberOne s ids).1.mapText f, (Area.numberOne s ids).2) := by
  cases s with
  | leaf s => rfl
  | container heading children =>
    simp only [Shape.mapText, numberOne, Leaf.number_map_mapText]
    rfl

/-- Contents and titles can be changed before numbering or after. -/
theorem Area.number_map_mapText (shapes : List Shape) (ids : IdCounter) :
    Area.number (shapes.map (Shape.mapText f)) ids =
      ((Area.number shapes ids).1.map (Area.mapText f), (Area.number shapes ids).2) := by
  induction shapes generalizing ids with
  | nil => rfl
  | cons s rest ih =>
    simp only [List.map_cons, number, ih, Area.numberOne_mapText]

end

end Worksheet
