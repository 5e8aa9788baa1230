import Mathlib.Data.List.Nodup
import Worksheet.Proofs.Area.Counter
import Worksheet.Proofs.Area.Numbering

/-! # Identifiers in document order

  Numbering asks the counter for one identifier after the other and for nothing else, to a container
  before its children. So the identifiers of numbered areas, read in this order, are what the
  counter hands out (`IdCounter.HandsOut`), and as long as it has not come to the last one these
  are successive numbers.
-/

namespace Worksheet

/-! ### What a counter hands out -/

namespace IdCounter

/-- A counter hands out identifiers one after the other, and nothing else is done to it meanwhile. -/
inductive HandsOut : IdCounter → List AreaId → IdCounter → Prop where
  | nil (ids : IdCounter) : HandsOut ids [] ids
  | cons {ids after : IdCounter} {others : List AreaId} :
      HandsOut ids.fresh.2 others after → HandsOut ids (ids.fresh.1 :: others) after

variable {ids between after : IdCounter} {xs ys : List AreaId}

theorem HandsOut.one (ids : IdCounter) : ids.HandsOut [ids.fresh.1] ids.fresh.2 := .cons (.nil _)

theorem HandsOut.append (h : ids.HandsOut xs between) (h' : between.HandsOut ys after) :
    ids.HandsOut (xs ++ ys) after := by
  induction h with
  | nil => exact h'
  | cons _ ih => exact .cons (ih h')

theorem val_next_fresh {ids : IdCounter} (h : ids.fresh.1 ≠ .last) :
    ids.fresh.2.next.val = ids.next.val + 1 := by
  have hlt : ids.next.val < Nat.pow 2 64 - 1 := AreaId.val_lt_of_ne_last h
  show ids.next.succ.val = _
  rw [AreaId.val_succ]
  omega

/-- Up to the last identifier a counter hands out successive numbers and counts them. -/
theorem HandsOut.map_val (h : ids.HandsOut xs after) (hroom : .last ∉ xs) :
    xs.map AreaId.val = List.range' ids.next.val xs.length ∧
      after.next.val = ids.next.val + xs.length := by
  induction h with
  | nil => exact ⟨rfl, rfl⟩
  | @cons ids after others _ ih =>
    obtain ⟨hfirst, hothers⟩ := not_or.1 (mt List.mem_cons.2 hroom)
    obtain ⟨hvals, hafter⟩ := ih hothers
    rw [val_next_fresh (Ne.symm hfirst)] at hvals hafter
    refine ⟨?_, ?_⟩
    · rw [List.map_cons, List.length_cons, List.range'_succ, hvals]
      rfl
    · rw [hafter, List.length_cons]
      omega

/-- Handing out never moves the floor. -/
theorem HandsOut.floor_eq (h : ids.HandsOut xs after) : after.floor = ids.floor := by
  induction h with
  | nil => rfl
  | cons _ ih => exact ih

end IdCounter

/-! ### What numbering hands out -/

theorem Leaf.handsOut_number (shapes : List LeafShape) (ids : IdCounter) :
    ids.HandsOut ((Leaf.number shapes ids).1.map Leaf.id) (Leaf.number shapes ids).2 := by
  induction shapes generalizing ids with
  | nil => exact .nil ids
  | cons s rest ih => exact .cons (ih ids.fresh.2)

theorem Area.handsOut_numberOne (s : Shape) (ids : IdCounter) :
    ids.HandsOut (Area.numberOne s ids).1.ids (Area.numberOne s ids).2 := by
  cases s with
  | leaf s => exact .one ids
  | container heading children => exact .cons (Leaf.handsOut_number children ids.fresh.2)

/-- The identifiers of numbered areas are what the counter hands out. -/
theorem Area.handsOut_number (shapes : List Shape) (ids : IdCounter) :
    ids.HandsOut ((Area.number shapes ids).1.flatMap Area.ids) (Area.number shapes ids).2 := by
  induction shapes generalizing ids with
  | nil => exact .nil ids
  | cons s rest ih => exact (Area.handsOut_numberOne s ids).append (ih (Area.numberOne s ids).2)

/-- There are as many identifiers as there are areas and children. -/
theorem Area.length_ids (areas : List Area) :
    (areas.flatMap Area.ids).length = areas.length + (areas.flatMap Area.children).length := by
  induction areas with
  | nil => rfl
  | cons a rest ih =>
    simp only [List.flatMap_cons, List.length_append, List.length_cons, ids, List.length_map, ih]
    omega

/-! ### Areas in order -/

/-- What is promised about areas that have been numbered, and about the counter. -/
structure Area.NumberedInOrder (areas : List Area) (before after : IdCounter) : Prop where
  /-- From the first area to the last, a container before its children, the identifiers are the
      numbers from that of the counter on, as many as there are areas and children. -/
  val_ids : (areas.flatMap Area.ids).map AreaId.val =
    List.range' before.fresh.1.val (areas.length + (areas.flatMap Area.children).length)
  /-- The counter goes on right behind them. -/
  val_next : after.fresh.1.val =
    before.fresh.1.val + (areas.length + (areas.flatMap Area.children).length)
  /-- No two areas have one identifier. -/
  nodup : (areas.flatMap Area.ids).Nodup
  /-- Nothing else about the counter has changed. -/
  floor_eq : after.floor = before.floor

/-- Areas whose identifiers are what a counter has handed out are numbered in order. -/
theorem Area.numberedInOrder {areas : List Area} {before after : IdCounter}
    (h : before.HandsOut (areas.flatMap Area.ids) after)
    (hroom : .last ∉ areas.flatMap Area.ids) : Area.NumberedInOrder areas before after := by
  obtain ⟨hvals, hnext⟩ := h.map_val hroom
  rw [Area.length_ids] at hvals hnext
  constructor
  case val_ids => exact hvals
  case val_next => exact hnext
  case nodup =>
    apply List.Nodup.of_map AreaId.val
    rw [hvals]
    exact List.nodup_range'
  case floor_eq => exact h.floor_eq

end Worksheet
