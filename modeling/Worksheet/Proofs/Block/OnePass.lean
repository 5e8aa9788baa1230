import Worksheet.Block
import Worksheet.Proofs.Area.Numbering

/-! # Blocks in one pass

  Areas can be given identifiers while the lines are still being gone through: a leaf draws its own
  when all of its lines have been found, a container when its opener has been found, and then its
  children draw theirs. So the areas and the counter are those of reading first and numbering
  afterwards (`Block.scanLines_eq`).
-/

namespace Worksheet.Block

/-- Draws an identifier for a leaf whose lines have been found. -/
def drawLeaf (kind : LeafKind) (lines : List Text) (ids : IdCounter) : Leaf × IdCounter :=
  (⟨ids.fresh.1, kind, Text.joinLines lines, none⟩, ids.fresh.2)

/-! ### Inside a container -/

/-- Goes through the lines of a container behind its opener and title and draws an identifier for
    each child. Answers the children, what follows the closer, and the counter. -/
def scanChildren : List Text → IdCounter → List Leaf × List Text × IdCounter
  | [], ids => ([], [], ids)
  | line :: rest, ids =>
    if isCloser line then ([], rest, ids)
    else
      match opener? line with
      | some (.leaf kind) =>
        let leaf := drawLeaf kind (body rest) ids
        let others := scanChildren ((behindBody rest).drop 1) leaf.2
        (leaf.1 :: others.1, others.2)
      | some _ =>
        let leaf := drawLeaf .text (line :: (innerContainer rest).1) ids
        let others := scanChildren (innerContainer rest).2 leaf.2
        (leaf.1 :: others.1, others.2)
      | none =>
        if Text.isBlank line then scanChildren rest ids
        else
          let leaf := drawLeaf .text (line :: rest.takeWhile isLoose) ids
          let others := scanChildren (rest.dropWhile isLoose) leaf.2
          (leaf.1 :: others.1, others.2)
termination_by lines => lines.length
decreasing_by
  · have := length_behindBody_le rest
    simp only [List.length_drop, List.length_cons]
    omega
  · have := length_innerContainer_le rest
    simp only [List.length_cons]
    omega
  · simp
  · have := (List.dropWhile_suffix (l := rest) isLoose).length_le
    simp only [List.length_cons]
    omega

/-- Drawing identifiers for children while their lines are gone through gives what numbering
    afterwards gives. -/
theorem scanChildren_eq (lines : List Text) (ids : IdCounter) :
    scanChildren lines ids =
      ((Leaf.number (children lines).1 ids).1, (children lines).2,
        (Leaf.number (children lines).1 ids).2) := by
  fun_induction scanChildren lines ids with
  | case1 ids => rw [children]; rfl
  | case2 line rest ids hcloser => rw [children, if_pos hcloser]; rfl
  | case3 line rest ids hcloser kind hopener leaf others ih =>
    rw [children, if_neg hcloser, hopener]
    exact congrArg (fun others => (leaf.1 :: others.1, others.2)) ih
  | case4 line rest ids hcloser opener hleaf hopener leaf others ih =>
    rw [children, if_neg hcloser, hopener]
    cases opener with
    | leaf kind => exact absurd rfl (hleaf kind)
    | collapsible => exact congrArg (fun others => (leaf.1 :: others.1, others.2)) ih
    | input => exact congrArg (fun others => (leaf.1 :: others.1, others.2)) ih
  | case5 line rest ids hcloser hopener hblank ih =>
    rw [children, if_neg hcloser, hopener, ih]
    simp only [hblank, if_true]
  | case6 line rest ids hcloser hopener hblank leaf others ih =>
    rw [children, if_neg hcloser, hopener]
    simp only [hblank]
    exact congrArg (fun others => (leaf.1 :: others.1, others.2)) ih

/-! ### Outside -/

/-- Goes through lines outside any block and draws identifiers for the areas. A container draws its
    own before its children draw theirs. -/
def scanLines : List Text → IdCounter → List Area × IdCounter
  | [], ids => ([], ids)
  | line :: rest, ids =>
    match opener? line with
    | some (.leaf kind) =>
      let leaf := drawLeaf kind (body rest) ids
      let others := scanLines ((behindBody rest).drop 1) leaf.2
      (.leaf leaf.1 :: others.1, others.2)
    | some .collapsible =>
      let inside := scanChildren (heading rest).2 ids.fresh.2
      let others := scanLines inside.2.1 inside.2.2
      (.container ⟨ids.fresh.1, .collapsible (heading rest).1, inside.1, none⟩ :: others.1,
        others.2)
    | some .input =>
      let inside := scanChildren rest ids.fresh.2
      let others := scanLines inside.2.1 inside.2.2
      (.container ⟨ids.fresh.1, .input .unattempted, inside.1, none⟩ :: others.1, others.2)
    | none =>
      if Text.isBlank line then scanLines rest ids
      else
        let leaf := drawLeaf .text (line :: rest.takeWhile isLoose) ids
        let others := scanLines (rest.dropWhile isLoose) leaf.2
        (.leaf leaf.1 :: others.1, others.2)
termination_by lines => lines.length
decreasing_by
  · have := length_behindBody_le rest
    simp only [List.length_drop, List.length_cons]
    omega
  · have h₁ := length_children_le (heading rest).2
    have h₂ := length_heading_le rest
    simp only [scanChildren_eq, List.length_cons]
    omega
  · have := length_children_le rest
    simp only [scanChildren_eq, List.length_cons]
    omega
  · simp
  · have := (List.dropWhile_suffix (l := rest) isLoose).length_le
    simp only [List.length_cons]
    omega

/-- Drawing identifiers while lines are gone through gives the same areas as numbering what has been
    read, and leaves the same counter. -/
theorem scanLines_eq (lines : List Text) (ids : IdCounter) :
    scanLines lines ids = Area.number (readLines lines) ids := by
  fun_induction scanLines lines ids with
  | case1 ids => rw [readLines]; rfl
  | case2 line rest ids kind hopener leaf others ih =>
    rw [readLines, hopener]
    exact congrArg (fun others => (Area.leaf leaf.1 :: others.1, others.2)) ih
  | case3 line rest ids hopener inside others ih =>
    have hinside : inside = _ := scanChildren_eq (heading rest).2 ids.fresh.2
    have hothers : others = _ := ih
    rw [readLines, hopener, hothers, hinside]
    rfl
  | case4 line rest ids hopener inside others ih =>
    have hinside : inside = _ := scanChildren_eq rest ids.fresh.2
    have hothers : others = _ := ih
    rw [readLines, hopener, hothers, hinside]
    rfl
  | case5 line rest ids hopener hblank ih =>
    rw [readLines, hopener, ih]
    simp only [hblank, if_true]
  | case6 line rest ids hopener hblank leaf others ih =>
    rw [readLines, hopener]
    simp only [hblank]
    exact congrArg (fun others => (Area.leaf leaf.1 :: others.1, others.2)) ih

end Worksheet.Block
