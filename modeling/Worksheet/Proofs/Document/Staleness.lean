import Worksheet.Proofs.Document.Operations

/-! # Stale ranges

  A document whose ranges are not valid should report none, since those it still had would be those
  of other areas. Most operations drop the ranges last. An edit drops them first, so a range on an
  area that the edit puts in stays, and that is the only way for one to stay
  (`Document.reportsNothing_after_iff`).
-/

namespace Worksheet

/-! ### Areas without ranges -/

/-- No range on the area or on one of its children. -/
def Area.Rangeless (a : Area) : Prop := ∀ e ∈ a.entries, e.range = none

theorem Area.rangeless_clearRanges (a : Area) : a.clearRanges.Rangeless := by
  intro e he
  cases a with
  | leaf l =>
    obtain rfl := List.mem_singleton.1 he
    rfl
  | container c =>
    rcases List.mem_cons.1 he with rfl | he
    · rfl
    · obtain ⟨l, hl, rfl⟩ := List.mem_map.1 he
      obtain ⟨l', -, rfl⟩ := List.mem_map.1 hl
      rfl

theorem Area.Rangeless.range_eq_none {a : Area} (h : a.Rangeless) : a.range = none := by
  cases a with
  | leaf l => exact h _ (.head _)
  | container c => exact h _ (.head _)

/-! ### Documents without ranges -/

namespace Document

/-- Nothing in the document reports a range, and no lookup that needs one finds anything. -/
structure ReportsNothing (d : Document) : Prop where
  range_eq : ∀ e ∈ d.entries, e.range = none
  areaAt?_eq : ∀ p, d.areaAt? p = none
  areaStartingAt?_eq : ∀ p, d.areaStartingAt? p = none
  offsetOf?_eq : ∀ id p, d.offsetOf? id p = none
  positionOf?_eq : ∀ id offset, d.positionOf? id offset = none

variable {d : Document}

theorem locate?_eq_none (h : ∀ a ∈ d.areas, a.Rangeless) (p : Position)
    (test : Range → Position → Bool) : d.locate? p test = none := by
  refine Option.map_eq_none_iff.2 (List.find?_eq_none.2 ?_)
  intro a ha
  rw [(h a ha).range_eq_none]
  exact nofun

/-- Lookups find nothing as soon as there are no ranges. -/
theorem reportsNothing_iff : d.ReportsNothing ↔ ∀ a ∈ d.areas, a.Rangeless := by
  constructor
  · intro h a ha e he
    exact h.range_eq e (List.mem_flatMap_of_mem ha he)
  · intro h
    have hentries : ∀ e ∈ d.entries, e.range = none := by
      intro e he
      obtain ⟨a, ha, he⟩ := List.mem_flatMap.1 he
      exact h a ha e he
    have hfind : ∀ {id e}, d.find? id = some e → e.range = none :=
      fun hfind => hentries _ (List.mem_of_find?_eq_some hfind)
    constructor
    case range_eq => exact hentries
    case areaAt?_eq => exact fun p => locate?_eq_none h p _
    case areaStartingAt?_eq =>
      intro p
      unfold areaStartingAt? areaAt?
      rw [locate?_eq_none h, locate?_eq_none h]
      rfl
    case offsetOf?_eq =>
      intro id p
      unfold offsetOf?
      cases he : d.find? id with
      | none => rfl
      | some e =>
        show e.offsetOf? p = none
        unfold Entry.offsetOf?
        rw [hfind he]
        split <;> rfl
    case positionOf?_eq =>
      intro id offset
      unfold positionOf?
      cases he : d.find? id with
      | none => rfl
      | some e =>
        show e.positionOf? offset = none
        unfold Entry.positionOf?
        rw [hfind he]
        split <;> rfl

theorem reportsNothing_invalidate (d : Document) : d.invalidate.ReportsNothing := by
  refine reportsNothing_iff.2 ?_
  intro a ha
  obtain ⟨a', -, rfl⟩ := List.mem_map.1 ha
  exact a'.rangeless_clearRanges

/-! ### Operations -/

/-- The operation puts no area with a range into the document. Only an edit can; it sees the areas
    without their ranges. -/
def BringsNoRange (d : Document) : Operation → Prop
  | .edit change => ∀ a ∈ change d.invalidate.areas, a.Rangeless
  | .withAreas _ | .push _ | .updateBounds | .setGrammar _ => True

/-- After an operation, ranges that are not valid are absent exactly if the operation brought
    none. What the document was like before makes no difference. -/
theorem reportsNothing_next_iff (d : Document) (o : Operation) :
    ((d.next o).boundsValid = false → (d.next o).ReportsNothing) ↔ d.BringsNoRange o := by
  cases o with
  | withAreas areas => exact iff_of_true (fun _ => reportsNothing_invalidate _) trivial
  | push area => exact iff_of_true (fun _ => reportsNothing_invalidate _) trivial
  | updateBounds =>
    refine iff_of_true ?_ trivial
    intro hinvalid
    rw [next, updateBounds_eq] at hinvalid
    exact nomatch hinvalid
  | setGrammar grammar =>
    refine iff_of_true ?_ trivial
    intro hinvalid
    rw [next, setGrammar, updateBounds_eq] at hinvalid
    exact nomatch hinvalid
  | edit change =>
    show (_ → (d.edit change).ReportsNothing) ↔ ∀ a ∈ (d.edit change).areas, a.Rangeless
    rw [← reportsNothing_iff]
    exact ⟨fun h => h rfl, fun h _ => h⟩

theorem after_concat (d : Document) (done : List Operation) (o : Operation) :
    d.after (done ++ [o]) = (d.after done).next o :=
  List.foldl_concat next d o done

/-- Throughout a run, a document whose ranges are not valid reports none, exactly if no edit of the
    run puts an area with a range into it. -/
theorem reportsNothing_after_iff (uri : Text) (grammar : OutputGrammar)
    (operations : List Operation) :
    (∀ done, done <+: operations → ((blank uri grammar).after done).boundsValid = false →
      ((blank uri grammar).after done).ReportsNothing) ↔
    ∀ done o, done ++ [o] <+: operations → ((blank uri grammar).after done).BringsNoRange o := by
  constructor
  · intro h done o hdone
    have hlast := h (done ++ [o]) hdone
    rw [after_concat] at hlast
    exact (reportsNothing_next_iff _ o).1 hlast
  · intro h done hdone
    rcases List.eq_nil_or_concat done with rfl | ⟨before, o, rfl⟩
    · -- a blank document has no areas at all
      exact fun _ => reportsNothing_iff.2 nofun
    · rw [List.concat_eq_append] at hdone ⊢
      rw [after_concat]
      exact (reportsNothing_next_iff _ o).2 (h before o hdone)

/-- An edit that puts a copy of a mapped leaf behind that leaf: the copy is found at the place of
    the leaf, while its own place is behind it. -/
theorem areaAt?_of_copied_leaf :
    let leaf : Leaf := ⟨.zero, .text, ['a'], none⟩
    let mapped := (blank [] .coqmd).after [.push (.leaf leaf), .updateBounds]
    let d := mapped.next (.edit fun areas => areas ++ mapped.areas)
    d.boundsValid = false ∧ ¬d.ReportsNothing ∧
    d.areaAt? ⟨0, 0⟩ = some (.top (.leaf { leaf with range := some ⟨⟨0, 1⟩, ⟨0, 0⟩, ⟨0, 1⟩⟩ })) ∧
    d.updateBounds.1.ranges = [(.zero, some ⟨⟨0, 1⟩, ⟨0, 0⟩, ⟨0, 1⟩⟩),
      (.zero, some ⟨⟨1, 2⟩, ⟨0, 1⟩, ⟨0, 2⟩⟩)] := by
  intro leaf mapped d
  have hfound : d.areaAt? ⟨0, 0⟩ =
      some (.top (.leaf { leaf with range := some ⟨⟨0, 1⟩, ⟨0, 0⟩, ⟨0, 1⟩⟩ })) := by decide
  refine ⟨rfl, ?_, hfound, by decide⟩
  intro hnothing
  exact nomatch hfound.symm.trans (hnothing.areaAt?_eq _)

end Document

end Worksheet
