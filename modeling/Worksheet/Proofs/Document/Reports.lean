import Worksheet.Proofs.Document.Lookup
import Worksheet.Sync.Diagnostic

/-! # Where reports land

  The server reports on ranges of the written text, and the editor shows a report inside one leaf.
  The main statement relates the two without the lookup that connects them: a report that starts on
  a character of a leaf gets offsets into that leaf, and they are the byte offsets of its two ends
  in the written text, counted from where the leaf begins and cut off where it ends. Wherever
  else a report starts, what it gets can be cut out of a leaf.
-/

namespace Worksheet

/-! ### Offsets into leaves -/

/-- Only leaves have offsets, and only at seams of their content. -/
theorem Entry.offsetOf?_eq_some {e : Entry} {p : Position} {o : Nat}
    (h : e.offsetOf? p = some o) : e.kind.isContainer = false ∧ e.content.HasSeam o := by
  unfold offsetOf? at h
  split at h
  · exact nomatch h
  · next hleaf =>
    obtain ⟨r, -, hoffset⟩ := Option.bind_eq_some_iff.1 h
    obtain ⟨-, hseam⟩ := Text.divides_of_offsetIn? hoffset
    obtain ⟨u, v, hcontent, ho, -⟩ := hseam
    exact ⟨Bool.not_eq_true _ ▸ hleaf, u, v, hcontent, ho⟩

namespace Document

variable {d : Document}

/-- Where identifiers are distinct, the offset into a leaf is sought in its own content. -/
theorem offsetOf?_eq (hids : (d.entries.map Entry.id).Nodup) {e : Entry} (he : e ∈ d.entries)
    (hleaf : e.kind.isContainer = false) {r : Range} (hr : e.range = some r) (p : Position) :
    d.offsetOf? e.id p = e.content.offsetIn? r p := by
  unfold offsetOf?
  rw [find?_of_mem hids he]
  show e.offsetOf? p = _
  unfold Entry.offsetOf?
  rw [hleaf, hr]
  rfl

/-- A report that starts on a character of a leaf is mapped to that leaf. -/
theorem mapDiagnostic?_of_mem (h : d.HasBounds) (hids : (d.entries.map Entry.id).Nodup)
    {report : Diagnostic} (hle : report.start ≤ report.stop) {e : Entry} (he : e ∈ d.entries)
    (hleaf : e.kind.isContainer = false) {r : Range} (hr : e.range = some r)
    (hstart : r.containsHalfOpen report.start = true) :
    ∃ start stop, d.mapDiagnostic? report = some ⟨report, e.id, start, stop⟩ ∧
      d.write.byteAt? report.start = some (r.span.start + start) ∧
      stop = (e.content.offsetIn? r report.stop).getD e.content.utf8Length := by
  obtain ⟨t, ht, hplace⟩ := h.isPlaceOf he hleaf
  obtain rfl := Option.some.inj (ht.symm.trans hr)
  have hends := Range.containsHalfOpen_iff.1 hstart
  have hcontains := Range.contains_iff.2 ⟨hends.1, le_of_lt hends.2⟩
  obtain ⟨start, hoffset, hbyte, hseam⟩ := hplace.offsetIn?_eq hcontains
  -- the end does not come before the start, so the greater of the two offsets is that of the end
  have hmax : start ≤ (e.content.offsetIn? t report.stop).getD e.content.utf8Length := by
    by_cases hstop : t.contains report.stop = true
    · obtain ⟨stop, hstop, hbyte', -⟩ := hplace.offsetIn?_eq hstop
      have := Text.byteAt?_mono hbyte hbyte' hle
      rw [hstop, Option.getD_some]
      omega
    · rw [show e.content.offsetIn? t report.stop = none from if_neg hstop]
      exact hseam.le
  have hfound : d.areaStartingAt? report.start = some e := by
    unfold areaStartingAt?
    rw [h.locate?_of_mem he hleaf hr hstart]
    rfl
  refine ⟨start, _, ?_, hbyte, rfl⟩
  unfold mapDiagnostic?
  rw [hfound]
  show (d.offsetOf? e.id report.start).bind _ = _
  rw [offsetOf?_eq hids he hleaf hr, offsetOf?_eq hids he hleaf hr, hoffset]
  show some _ = some _
  rw [Nat.max_eq_left hmax]

/-- Whatever a report is mapped to can be cut out of a leaf of the document. -/
theorem mem_entries_of_mapDiagnostic? (hids : (d.entries.map Entry.id).Nodup)
    {report : Diagnostic} {m : MappedDiagnostic} (h : d.mapDiagnostic? report = some m) :
    ∃ e ∈ d.entries, e.kind.isContainer = false ∧ m.area = e.id ∧ m.start ≤ m.stop ∧
      e.content.HasSeam m.start ∧ e.content.HasSeam m.stop := by
  obtain ⟨e, hfound, h⟩ := Option.bind_eq_some_iff.1 h
  obtain ⟨start, hstart, h⟩ := Option.bind_eq_some_iff.1 h
  obtain rfl := Option.some.inj h
  have he := mem_entries_of_areaStartingAt? hfound
  have hoffset : ∀ p, d.offsetOf? e.id p = e.offsetOf? p := by
    intro p
    unfold offsetOf?
    rw [find?_of_mem hids he]
    rfl
  rw [hoffset] at hstart
  obtain ⟨hleaf, hseam⟩ := Entry.offsetOf?_eq_some hstart
  refine ⟨e, he, hleaf, rfl, Nat.le_max_right _ _, hseam, ?_⟩
  -- the end is the start, an offset of the leaf, or the end of the content
  rw [hoffset]
  rcases Nat.le_total ((e.offsetOf? report.stop).getD e.content.utf8Length) start with hle | hle
  · rw [Nat.max_eq_right hle]
    exact hseam
  · rw [Nat.max_eq_left hle]
    cases hstop : e.offsetOf? report.stop with
    | none => exact Text.hasSeam_utf8Length _
    | some stop => exact (Entry.offsetOf?_eq_some hstop).2

/-- Reports land on the right text. In a document with its ranges and distinct identifiers, a report
    that does not end before it starts, and that starts on a character of a leaf, is mapped to that
    leaf. Counted from the start of the leaf's span, its start is the byte offset of its start in
    the written text, and its end that of its end or of the end of the leaf, whichever comes
    first; an end on a line that does not exist is the end of the content. Whatever any report is
    mapped to names a leaf of the document, and its offsets are in order and fall between
    characters of the leaf's content. -/
theorem mapDiagnostic?_lands {d : Document} (hbounds : d.HasBounds)
    (hids : (d.entries.map Entry.id).Nodup) (report : Diagnostic) :
    (∀ e ∈ d.entries, e.kind.isContainer = false → ∀ r, e.range = some r →
      r.containsHalfOpen report.start = true → report.start ≤ report.stop →
      ∃ m, d.mapDiagnostic? report = some m ∧ m.diagnostic = report ∧ m.area = e.id ∧
        d.write.byteAt? report.start = some (r.span.start + m.start) ∧
        (∀ b, d.write.byteAt? report.stop = some b →
          r.span.start + m.stop = min b r.span.stop) ∧
        (d.write.byteAt? report.stop = none → m.stop = e.content.utf8Length)) ∧
    ∀ m, d.mapDiagnostic? report = some m →
      ∃ e ∈ d.entries, e.kind.isContainer = false ∧ m.area = e.id ∧
        m.start ≤ m.stop ∧ m.stop ≤ e.content.utf8Length ∧
        e.content.HasSeam m.start ∧ e.content.HasSeam m.stop := by
  constructor
  · intro e he hleaf r hr hstart hle
    obtain ⟨start, stop, hmapped, hbyte, hstop⟩ :=
      mapDiagnostic?_of_mem hbounds hids hle he hleaf hr hstart
    obtain ⟨t, ht, hplace⟩ := hbounds.isPlaceOf he hleaf
    obtain rfl := Option.some.inj (ht.symm.trans hr)
    have hbehind := le_trans (Range.containsHalfOpen_iff.1 hstart).1 hle
    refine ⟨_, hmapped, rfl, rfl, hbyte, ?_, ?_⟩
    · intro b hb
      rw [hstop]
      exact hplace.start_add_offsetIn?_getD hbehind hb
    · intro hnone
      rw [hstop, hplace.offsetIn?_of_byteAt?_eq_none hnone, Option.getD_none]
  · intro m hm
    obtain ⟨e, he, hleaf, harea, hle, hstart, hstop⟩ := mem_entries_of_mapDiagnostic? hids hm
    exact ⟨e, he, hleaf, harea, hle, hstop.le, hstart, hstop⟩

/-- A report that starts inside a surrogate pair on the second line of a leaf that begins in the
    middle of a line, and ends past the end of that line. -/
theorem mapDiagnostic?_lands_inside_pair :
    ∃ m, (updateBounds ⟨[], [.leaf ⟨.zero, .text, ['T'], none⟩,
        .leaf ⟨⟨1, by decide⟩, .code, ['a', '\n', '𝒳', 'c'], none⟩], .coq, false⟩).1.mapDiagnostic?
          ⟨⟨1, 1⟩, ⟨1, 9⟩, []⟩ = some m ∧ m.area = ⟨1, by decide⟩ ∧ m.start = 2 ∧ m.stop = 7 := by
  obtain ⟨m, hm, -, harea, hstart, hstop, -⟩ :=
    (mapDiagnostic?_lands (d := (updateBounds ⟨[], [.leaf ⟨.zero, .text, ['T'], none⟩,
      .leaf ⟨⟨1, by decide⟩, .code, ['a', '\n', '𝒳', 'c'], none⟩], .coq, false⟩).1)
      (hasBounds_updateBounds _) (by decide +kernel) ⟨⟨1, 1⟩, ⟨1, 9⟩, []⟩).1
      (.top (.leaf ⟨⟨1, by decide⟩, .code, ['a', '\n', '𝒳', 'c'],
        some ⟨⟨8, 15⟩, ⟨0, 8⟩, ⟨1, 3⟩⟩⟩)) (by decide +kernel) rfl _ rfl (by decide) (by decide)
  have hbyte := hstart.symm.trans (show _ = some 10 by decide +kernel)
  have hend := hstop 15 (by decide +kernel)
  simp only [Option.some.injEq] at hbyte hend
  exact ⟨m, hm, harea, by omega, by omega⟩

end Document

end Worksheet
