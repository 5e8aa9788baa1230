import Worksheet.Document
import Worksheet.Proofs.Bounds.Layout

/-! # Ranges on a document

  Finding the ranges of a document never fails, and it touches nothing but ranges. A document whose
  ranges have been found carries exactly those that the search finds for its areas and grammar, at
  the top level and inside containers (`Document.HasBounds`).
-/

namespace Worksheet

/-! ### What placing ranges leaves alone -/

@[simp] theorem Leaf.map_shape_place (leaves : List Leaf) (found : List (AreaId × Range)) :
    (Leaf.place leaves found).map Leaf.shape = leaves.map Leaf.shape := by
  induction leaves generalizing found with
  | nil => cases found <;> rfl
  | cons l rest ih =>
    cases found with
    | nil => rfl
    | cons b bs => simp [Leaf.place, ih, Leaf.shape]

@[simp] theorem Leaf.map_id_place (leaves : List Leaf) (found : List (AreaId × Range)) :
    (Leaf.place leaves found).map Leaf.id = leaves.map Leaf.id := by
  induction leaves generalizing found with
  | nil => cases found <;> rfl
  | cons l rest ih =>
    cases found with
    | nil => rfl
    | cons b bs => simp [Leaf.place, ih]

@[simp] theorem Leaf.clearRanges_place (leaves : List Leaf) (found : List (AreaId × Range)) :
    (Leaf.place leaves found).map ({ · with range := none }) =
      leaves.map ({ · with range := none }) := by
  induction leaves generalizing found with
  | nil => cases found <;> rfl
  | cons l rest ih =>
    cases found with
    | nil => rfl
    | cons b bs => simp [Leaf.place, ih]

/-- Finding the ranges changes nothing else. -/
theorem Area.clearRanges_place (areas : List Area) (found : List Bounds) :
    (Area.place areas found).map Area.clearRanges = areas.map Area.clearRanges := by
  induction areas generalizing found with
  | nil => cases found <;> rfl
  | cons a rest ih =>
    cases found with
    | nil => cases a <;> rfl
    | cons b bs => cases a <;> simp [Area.place, Area.clearRanges, ih]

/-- Areas that differ in their ranges only. -/
def Area.SameButRanges (a b : Area) : Prop :=
  a.id = b.id ∧ a.shape = b.shape ∧ a.children.map Leaf.id = b.children.map Leaf.id

theorem Area.SameButRanges.refl (a : Area) : a.SameButRanges a := ⟨rfl, rfl, rfl⟩

theorem Area.sameButRanges_place (areas : List Area) (found : List Bounds) :
    List.Forall₂ Area.SameButRanges (Area.place areas found) areas := by
  induction areas generalizing found with
  | nil => cases found <;> exact .nil
  | cons a rest ih =>
    cases found with
    | nil => cases a <;> exact List.forall₂_same.2 fun _ _ => .refl _
    | cons b bs =>
      cases a with
      | leaf l => exact .cons ⟨rfl, rfl, rfl⟩ (ih bs)
      | container c =>
        refine .cons ⟨rfl, ?_, Leaf.map_id_place _ _⟩ (ih bs)
        simp [Area.shape, Container.shape]

theorem Area.map_shape_place (areas : List Area) (found : List Bounds) :
    (Area.place areas found).map Area.shape = areas.map Area.shape := by
  have h := Area.sameButRanges_place areas found
  generalize Area.place areas found = placed at h
  induction h with
  | nil => rfl
  | cons h _ ih => rw [List.map_cons, List.map_cons, h.2.1, ih]

theorem Area.write_place (g : OutputGrammar) (areas : List Area) (found : List Bounds) :
    Area.write g (Area.place areas found) = Area.write g areas := by
  unfold Area.write
  rw [Area.map_shape_place]

/-- The children of an area are rendered from their shapes, which the shape of the area holds. -/
theorem Area.SameButRanges.map_render {g : OutputGrammar} {a b : Area} (h : a.SameButRanges b) :
    a.children.map (Leaf.render g) = b.children.map (Leaf.render g) := by
  have hshapes : a.children.map Leaf.shape = b.children.map Leaf.shape := by
    have hab := h.2.1
    cases a with
    | leaf l =>
      cases b with
      | leaf m => rfl
      | container d => exact absurd hab (by simp [Area.shape, Container.shape])
    | container c =>
      cases b with
      | leaf m => exact absurd hab (by simp [Area.shape, Container.shape])
      | container d => exact (Shape.container.inj hab).2
  have hcomp : ∀ leaves : List Leaf, leaves.map (Leaf.render g) =
      (leaves.map Leaf.shape).map (LeafShape.render g) := by
    intro leaves
    rw [List.map_map]
    rfl
  rw [hcomp, hcomp, hshapes]

/-- The layout of areas does not depend on the ranges they carry. -/
theorem Area.layout_congr {g : OutputGrammar} {areas others : List Area}
    (h : List.Forall₂ Area.SameButRanges areas others) (before : Text) :
    Area.layout g before areas = Area.layout g before others := by
  induction h generalizing before with
  | nil => rfl
  | cons h _ ih =>
    have hrender : Area.render g _ = Area.render g _ := congrArg (Shape.render g) h.2.1
    unfold Area.layout
    rw [h.1, h.2.2, h.map_render, hrender, ih]

/-! ### Documents whose ranges have been found -/

/-- The ranges on an area and on its children are those of its bounds. -/
def Area.Carries (a : Area) (b : Bounds) : Prop :=
  a.range = some b.range ∧ a.children.map Leaf.range = b.children.map fun c => some c.2

/-- The ranges on a document are there, and they are the ones that are found for its areas in its
    grammar. -/
structure Document.HasBounds (d : Document) : Prop where
  valid : d.boundsValid = true
  carries : ∃ table, Area.bounds d.grammar d.areas = .ok table ∧
    List.Forall₂ Area.Carries d.areas table.areas

theorem Leaf.map_range_place {leaves : List Leaf} {found : List (AreaId × Range)}
    (h : found.length = leaves.length) :
    (Leaf.place leaves found).map Leaf.range = found.map fun c => some c.2 := by
  induction leaves generalizing found with
  | nil => rw [List.length_eq_zero_iff.1 h]; rfl
  | cons l rest ih =>
    cases found with
    | nil => simp at h
    | cons b bs => simp [Leaf.place, ih (by simpa using h)]

theorem Area.carries_place_layout (g : OutputGrammar) (areas : List Area) (before : Text) :
    List.Forall₂ Area.Carries (Area.place areas (Area.layout g before areas))
      (Area.layout g before areas) := by
  induction areas generalizing before with
  | nil => exact .nil
  | cons a rest ih =>
    cases a with
    | leaf l => exact .cons ⟨rfl, rfl⟩ (ih _)
    | container c => exact .cons ⟨rfl, Leaf.map_range_place (by simp [Area.children])⟩ (ih _)

namespace Document

/-- Finding ranges succeeds, and places those of the layout. -/
theorem updateBounds_eq (d : Document) :
    d.updateBounds =
      ({ d with areas := Area.place d.areas (Area.layout d.grammar [] d.areas),
                boundsValid := true }, none) := by
  unfold updateBounds
  rw [Area.bounds_eq_ok]

/-- A document has the ranges that were found for it. -/
theorem hasBounds_updateBounds (d : Document) : d.updateBounds.1.HasBounds := by
  rw [updateBounds_eq]
  refine ⟨rfl, ⟨Area.layout d.grammar [] d.areas⟩, ?_, Area.carries_place_layout _ _ _⟩
  show Area.bounds d.grammar (Area.place d.areas _) = _
  rw [Area.bounds_eq_ok, Area.layout_congr (Area.sameButRanges_place d.areas _)]

/-- Ranges are no part of the written form. -/
@[simp] theorem write_updateBounds (d : Document) : d.updateBounds.1.write = d.write := by
  rw [updateBounds_eq]
  exact Area.write_place d.grammar d.areas _

end Document

end Worksheet
