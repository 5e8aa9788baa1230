import Worksheet.Proofs.Document.Lookup

/-! # Offsets into leaves

  The offset of a position into a leaf and the position of an offset are found from the content of
  the leaf and its range alone. They agree with the offsets and positions of the whole written text,
  counted from where the leaf begins (`Entry.AgreesWith`), and undo each other. The range of a leaf
  is the place of its content in the text, so all this is a fact about a text with a content
  inside it.
-/

namespace Worksheet

namespace Text

theorem positionIn?_eq_none {content : Text} {o : Nat} (h : ¬ content.HasSeam o) (r : Range) :
    content.positionIn? r o = none := by
  rw [← isSome_takeBytes?, Option.not_isSome_iff_eq_none] at h
  unfold positionIn?
  rw [h]
  rfl

end Text

/-- A seam of a content has a position, which is its position in the text. It lies in the range of
    the content, and its offset is that of the seam. -/
theorem Range.IsPlaceOf.positionIn?_eq {r : Range} {source content : Text}
    (h : r.IsPlaceOf source content) {o : Nat} (ho : content.HasSeam o) :
    ∃ p, content.positionIn? r o = some p ∧ source.positionAt? (r.span.start + o) = some p ∧
      r.contains p = true ∧ content.offsetIn? r p = some o := by
  obtain ⟨u, v, rfl, rfl⟩ := ho
  obtain ⟨before, after, hsource, hr⟩ := h.exists_append
  have hcontains : r.contains ((Position.zero.advance before).advance u) = true := by
    rw [contains_iff, hr]
    refine ⟨Position.le_advance _ u, ?_⟩
    rw [← Position.advance_append, ← List.append_assoc]
    exact Position.advance_le_advance_append _ _ v
  have hstart : r.start = Position.zero.advance before := congrArg Range.start hr
  refine ⟨(Position.zero.advance before).advance u, ?_, ?_, hcontains, ?_⟩
  · unfold Text.positionIn?
    rw [Text.takeBytes?_append, hstart]
    rfl
  · have hsplit : source = (before ++ u) ++ (v ++ after) := by
      rw [hsource]
      simp only [List.append_assoc]
    have hspan : r.span.start + u.utf8Length = (before ++ u).utf8Length := by
      rw [Text.utf8Length_append, hr]
    rw [hspan, hsplit, Text.positionAt?_append, Position.advance_append]
  · -- the offset divides the content at the position, and the seam does so already
    obtain ⟨o, hoffset, -⟩ := h.offsetIn?_eq hcontains
    obtain ⟨-, x, y, hcontent, hx, hdivides⟩ := Text.divides_of_offsetIn? hoffset
    rw [hstart] at hdivides
    rw [hoffset, hx]
    exact congrArg some
      (hdivides.utf8Length_eq (Position.divides_advance _ u v) hcontent.symm)

namespace Entry

variable {e : Entry} {r : Range}

theorem offsetOf?_eq (hleaf : e.kind.isContainer = false) (hr : e.range = some r) (p : Position) :
    e.offsetOf? p = e.content.offsetIn? r p := by
  unfold offsetOf?
  rw [hleaf, hr]
  rfl

theorem positionOf?_eq (hleaf : e.kind.isContainer = false) (hr : e.range = some r) (o : Nat) :
    e.positionOf? o = e.content.positionIn? r o := by
  unfold positionOf?
  rw [hleaf, hr]
  rfl

/-- Offsets into a leaf agree with those of the text that the leaf is in. -/
structure AgreesWith (e : Entry) (r : Range) (source : Text) : Prop where
  /-- An offset between two characters, or at an end, has a position. It is the position in the text
      of that many bytes behind the start of the leaf, and has the offset again. -/
  positionOf?_eq : ∀ o, e.content.HasSeam o → ∃ p, e.positionOf? o = some p ∧
    source.positionAt? (r.span.start + o) = some p ∧ e.offsetOf? p = some o
  /-- No other offset has a position. -/
  positionOf?_eq_none : ∀ o, ¬ e.content.HasSeam o → e.positionOf? o = none
  /-- A position has an offset if and only if it lies in the range, ends included. -/
  isSome_offsetOf? : ∀ p, (e.offsetOf? p).isSome ↔ r.contains p = true
  /-- Its offset in the text is that many bytes behind the start of the leaf. -/
  byteAt?_eq : ∀ p o, e.offsetOf? p = some o → source.byteAt? p = some (r.span.start + o)

end Entry

namespace Document

/-- In a document whose ranges have been found, in whatever grammar, offsets into each leaf agree
    with the written text. -/
theorem offsets_agree {d : Document} (hbounds : d.HasBounds) {e : Entry} (he : e ∈ d.entries)
    (hleaf : e.kind.isContainer = false) : ∃ r, e.range = some r ∧ e.AgreesWith r d.write := by
  obtain ⟨r, hr, hplace⟩ := hbounds.isPlaceOf he hleaf
  have hoffset := Entry.offsetOf?_eq hleaf hr
  have hposition := Entry.positionOf?_eq hleaf hr
  refine ⟨r, hr, ?_⟩
  constructor
  case positionOf?_eq =>
    intro o ho
    obtain ⟨p, hp, hsource, -, hback⟩ := hplace.positionIn?_eq ho
    exact ⟨p, (hposition o).trans hp, hsource, (hoffset p).trans hback⟩
  case positionOf?_eq_none =>
    intro o ho
    exact (hposition o).trans (Text.positionIn?_eq_none ho r)
  case isSome_offsetOf? =>
    intro p
    rw [hoffset]
    constructor
    · intro h
      obtain ⟨o, ho⟩ := Option.isSome_iff_exists.1 h
      exact (Text.divides_of_offsetIn? ho).1
    · intro hp
      obtain ⟨o, ho, -⟩ := hplace.offsetIn?_eq hp
      exact Option.isSome_iff_exists.2 ⟨o, ho⟩
  case byteAt?_eq =>
    intro p o ho
    rw [hoffset] at ho
    obtain ⟨o', ho', hbyte, -⟩ := hplace.offsetIn?_eq (Text.divides_of_offsetIn? ho).1
    obtain rfl := Option.some.inj (ho.symm.trans ho')
    exact hbyte

/-- A document in which a leaf of two lines, with a surrogate pair on the second one, is in a
    collapsible and begins in the middle of a line. -/
def folded : Document :=
  (updateBounds ⟨[], [.leaf ⟨.zero, .text, ['T'], none⟩, .container ⟨⟨10, by decide⟩,
    .collapsible ['t'], [⟨⟨11, by decide⟩, .code, ['a', '\n', '𝒳', 'c'], none⟩], none⟩],
    .coq, false⟩).1

/-- That leaf, with its range. -/
def foldedLeaf : Entry :=
  let leaf : Leaf := ⟨⟨11, by decide⟩, .code, ['a', '\n', '𝒳', 'c'],
    some ⟨⟨31, 38⟩, ⟨0, 31⟩, ⟨1, 3⟩⟩⟩
  .child ⟨⟨10, by decide⟩, .collapsible ['t'], [leaf], some ⟨⟨31, 38⟩, ⟨0, 31⟩, ⟨1, 3⟩⟩⟩ leaf

/-- A column inside the pair belongs to the character that it splits, and an offset inside that
    character has no position. -/
theorem offsets_agree_folded :
    foldedLeaf ∈ folded.entries ∧ foldedLeaf.kind.isContainer = false ∧
      (∃ r, foldedLeaf.range = some r ∧ foldedLeaf.AgreesWith r folded.write) ∧
      foldedLeaf.positionOf? 6 = some ⟨1, 2⟩ ∧ foldedLeaf.positionOf? 3 = none ∧
      foldedLeaf.offsetOf? ⟨1, 1⟩ = some 2 ∧ foldedLeaf.offsetOf? ⟨0, 90⟩ = some 1 ∧
      foldedLeaf.offsetOf? ⟨0, 30⟩ = none := by
  have hmem : foldedLeaf ∈ folded.entries := by decide +kernel
  exact ⟨hmem, rfl, offsets_agree (hasBounds_updateBounds _) hmem rfl, by decide⟩

end Document

end Worksheet
