import Worksheet.Proofs.Text.Position

/-! # Offsets and positions of a whole text

  A position of a text and a byte offset into it are two ways to name a place. Every seam has a
  position, and later seams have later ones (`Text.positionAt?_le_positionAt?_iff`). A position need
  not be that of a seam: its column may lie past the end of its line or inside a surrogate pair. Its
  offset is then the last seam whose position is not behind it, so the two directions are adjoint
  (`Text.positionAt?_le_iff`). All else follows from this, line by line with the places where lines
  begin.
-/

namespace Worksheet.Text

variable {s : Text}

/-! ### Positions of offsets -/

/-- The position of an offset is reached by going through the text before it. -/
theorem eq_append_of_positionAt? {b : Nat} {q : Position} (h : s.positionAt? b = some q) :
    ∃ u v, s = u ++ v ∧ min b s.utf8Length = u.utf8Length ∧ q = Position.zero.advance u := by
  obtain ⟨u, hu, rfl⟩ := Option.map_eq_some_iff.1 h
  obtain ⟨v, hs, hb⟩ := eq_append_of_takeBytes? hu
  exact ⟨u, v, hs, hb, rfl⟩

/-- Up to the end of a text the seams have positions, and no other offset does. -/
theorem isSome_positionAt? {b : Nat} (hb : b ≤ s.utf8Length) :
    (s.positionAt? b).isSome ↔ s.HasSeam b := by
  unfold positionAt?
  rw [Option.isSome_map, isSome_takeBytes?, Nat.min_eq_left hb]

/-- Positions are in the order of their offsets, where offsets past the end count as the end. -/
theorem positionAt?_le_positionAt?_iff {a b : Nat} {p q : Position} (ha : s.positionAt? a = some p)
    (hb : s.positionAt? b = some q) : p ≤ q ↔ min a s.utf8Length ≤ min b s.utf8Length := by
  obtain ⟨u, v, hu, hlength, rfl⟩ := eq_append_of_positionAt? ha
  obtain ⟨x, y, hx, hlength', rfl⟩ := eq_append_of_positionAt? hb
  rw [hlength, hlength']
  exact (Position.divides_advance _ x y).advance_le_iff (hx.symm.trans hu)

/-- A greater offset has no earlier position. -/
theorem positionAt?_mono {a b : Nat} {p q : Position} (ha : s.positionAt? a = some p)
    (hb : s.positionAt? b = some q) (hab : a ≤ b) : p ≤ q := by
  rw [positionAt?_le_positionAt?_iff ha hb]
  omega

/-- A greater offset has a later position. -/
theorem positionAt?_lt {a b : Nat} {p q : Position} (ha : s.positionAt? a = some p)
    (hb : s.positionAt? b = some q) (hab : a < b) (hle : b ≤ s.utf8Length) : p < q := by
  rw [← not_le, positionAt?_le_positionAt?_iff hb ha]
  omega

/-! ### Offsets of positions -/

/-- The offset of a position is the last one whose position is not behind it. -/
theorem positionAt?_le_iff {b o : Nat} {p q : Position} (hb : s.positionAt? b = some q)
    (hle : b ≤ s.utf8Length) (ho : s.byteAt? p = some o) : q ≤ p ↔ b ≤ o := by
  obtain ⟨u, v, hu, hlength, rfl⟩ := eq_append_of_positionAt? hb
  obtain ⟨x, y, hx, rfl, hdivides⟩ := divides_of_byteAt? ho
  rw [Nat.min_eq_left hle] at hlength
  rw [hlength]
  exact hdivides.advance_le_iff (hx.symm.trans hu)

theorem hasSeam_of_byteAt? {o : Nat} {p : Position} (h : s.byteAt? p = some o) : s.HasSeam o := by
  obtain ⟨u, v, hs, ho, -⟩ := divides_of_byteAt? h
  exact ⟨u, v, hs, ho⟩

/-- A later position has no smaller offset. -/
theorem byteAt?_mono {a b : Nat} {p q : Position} (ha : s.byteAt? p = some a)
    (hb : s.byteAt? q = some b) (hpq : p ≤ q) : a ≤ b := by
  have hseam := hasSeam_of_byteAt? ha
  obtain ⟨r, hr⟩ := Option.isSome_iff_exists.1 ((isSome_positionAt? hseam.le).2 hseam)
  have hrp : r ≤ p := (positionAt?_le_iff hr hseam.le ha).2 (Nat.le_refl a)
  exact (positionAt?_le_iff hr hseam.le hb).1 (le_trans hrp hpq)

/-- A position has an offset if and only if the text has its line. -/
theorem isSome_byteAt?_iff (s : Text) (p : Position) :
    (s.byteAt? p).isSome ↔ p.line < s.lineCount := by
  rw [isSome_byteAt?]
  exact Nat.lt_succ_iff.symm

/-- The offset of the position of a seam is the seam again. -/
theorem byteAt?_of_positionAt? {b : Nat} {q : Position} (h : s.positionAt? b = some q)
    (hle : b ≤ s.utf8Length) : s.byteAt? q = some b := by
  obtain ⟨u, v, hs, hlength, rfl⟩ := eq_append_of_positionAt? h
  have hline : (Position.zero.advance u).line ≤ s.count '\n' := by
    rw [Position.line_advance, hs, List.count_append]
    show 0 + _ ≤ _
    omega
  obtain ⟨o, ho⟩ := Option.isSome_iff_exists.1 ((isSome_byteAt? s _).2 hline)
  obtain ⟨x, y, hx, rfl, hdivides⟩ := divides_of_byteAt? ho
  rw [Nat.min_eq_left hle] at hlength
  rw [ho, hlength]
  exact congrArg some
    (hdivides.utf8Length_eq (Position.divides_advance _ u v) (hx.symm.trans hs))

/-! ### Where lines begin -/

@[simp] theorem columnOffset_zero (line : Text) : columnOffset line 0 = 0 := by
  cases line with
  | nil => rfl
  | cons c line =>
    have hpos : ¬ utf16Size c ≤ 0 := by
      unfold utf16Size
      split <;> omega
    rw [columnOffset, if_neg hpos]

/-- A line begins at its first column. -/
theorem byteAt?_line_zero (s : Text) (n : Nat) : s.byteAt? ⟨n, 0⟩ = s.lineStart? n := by
  unfold byteAt? offsetAt? lineStart?
  simp only [columnOffset_zero, Nat.add_zero]

theorem positionAt?_of_lineStart? {n start : Nat} (h : s.lineStart? n = some start) :
    s.positionAt? start = some ⟨n, 0⟩ := by
  obtain ⟨⟨before, rest⟩, hdrop, rfl⟩ := Option.map_eq_some_iff.1 h
  obtain ⟨w, rfl, rfl, hw⟩ := eq_append_of_dropLines? hdrop
  rw [positionAt?_append, hw]
  by_cases hn : n = 0
  · rw [if_pos hn, hn]
    rfl
  · rw [if_neg hn]
    show some (⟨0 + n, 0⟩ : Position) = _
    rw [Nat.zero_add]

/-- The line of a position that has an offset begins at some offset, which is not greater. -/
theorem exists_lineStart? {o : Nat} {p : Position} (h : s.byteAt? p = some o) :
    ∃ start, s.lineStart? p.line = some start ∧ start ≤ o := by
  have hline := (isSome_byteAt?_iff s p).1 (Option.isSome_iff_exists.2 ⟨o, h⟩)
  obtain ⟨start, hstart⟩ := Option.isSome_iff_exists.1 ((isSome_byteAt?_iff s ⟨p.line, 0⟩).2 hline)
  have hle : start ≤ o := byteAt?_mono hstart h (.inr ⟨rfl, Nat.zero_le _⟩)
  rw [byteAt?_line_zero] at hstart
  exact ⟨start, hstart, hle⟩

/-- Where a line begins no later than at an offset, the offset is on that line or a later one. -/
theorem le_line_of_lineStart? {b n start : Nat} {q : Position} (hstart : s.lineStart? n = some start)
    (hq : s.positionAt? b = some q) (hle : start ≤ b) : n ≤ q.line := by
  have h := positionAt?_mono (positionAt?_of_lineStart? hstart) hq hle
  rw [Position.le_def] at h
  simp only at h
  omega

/-- The offset of a position is on its line. -/
theorem line_of_byteAt? {o : Nat} {p q : Position} (ho : s.byteAt? p = some o)
    (hq : s.positionAt? o = some q) : q.line = p.line := by
  obtain ⟨start, hstart, hbefore⟩ := exists_lineStart? ho
  have hge : p.line ≤ q.line := le_line_of_lineStart? hstart hq hbefore
  have hle : q ≤ p := (positionAt?_le_iff hq (hasSeam_of_byteAt? ho).le ho).2 (Nat.le_refl o)
  rw [Position.le_def] at hle
  omega

/-- The column of an offset counts the units between the beginning of its line and the offset. -/
theorem exists_slice?_of_lineStart? {b start : Nat} {q : Position} (h : s.positionAt? b = some q)
    (hb : b ≤ s.utf8Length) (hstart : s.lineStart? q.line = some start) (hle : start ≤ b) :
    ∃ between, s.slice? start b = some between ∧ q.character = between.utf16Length := by
  obtain ⟨w, rest, hw, hwlength, hzero⟩ :=
    eq_append_of_positionAt? (positionAt?_of_lineStart? hstart)
  obtain ⟨u, v, hu, hulength, rfl⟩ := eq_append_of_positionAt? h
  rw [Nat.min_eq_left (Nat.le_trans hle hb)] at hwlength
  rw [Nat.min_eq_left hb] at hulength
  obtain ⟨between, rfl⟩ :=
    exists_append_of_utf8Length_le (hu.symm.trans hw) (hwlength ▸ hulength ▸ hle)
  have hposition := Position.advance_append .zero w between
  rw [← hzero] at hposition
  -- both are positions on the same line
  have hline : '\n' ∉ between := by
    have hcount := congrArg Position.line hposition
    rw [Position.line_advance ⟨_, 0⟩] at hcount
    exact List.count_eq_zero.1 (Nat.left_eq_add.1 hcount)
  refine ⟨between, ?_, ?_⟩
  · rw [hu, hwlength, hulength, utf8Length_append]
    exact slice?_append w between v
  · rw [hposition, Position.advance_of_not_mem hline]
    exact Nat.zero_add _

/-! ### Both ways -/

/-- What is promised about the offsets and positions of a text. -/
structure LocatesBothWays (s : Text) : Prop where
  /-- A position has an offset if and only if the text has its line. -/
  isSome_byteAt? : ∀ p, (s.byteAt? p).isSome ↔ p.line < s.lineCount
  /-- The offset falls between two characters or on an end of the text. -/
  hasSeam_byteAt? : ∀ p o, s.byteAt? p = some o → s.HasSeam o
  /-- The offsets that do so have positions, and up to the end of the text no others do. -/
  isSome_positionAt? : ∀ b, b ≤ s.utf8Length → ((s.positionAt? b).isSome ↔ s.HasSeam b)
  /-- The position of an offset is not behind another one if and only if the offset is not behind
      the offset of that one. -/
  positionAt?_le_iff : ∀ b q p o, b ≤ s.utf8Length → s.positionAt? b = some q →
    s.byteAt? p = some o → (q ≤ p ↔ b ≤ o)
  /-- A greater offset has a later position. -/
  positionAt?_lt_iff : ∀ a b p q, a ≤ s.utf8Length → b ≤ s.utf8Length →
    s.positionAt? a = some p → s.positionAt? b = some q → (p < q ↔ a < b)
  /-- The position of an offset has that offset again. -/
  byteAt?_positionAt? : ∀ b q, b ≤ s.utf8Length → s.positionAt? b = some q → s.byteAt? q = some b
  /-- Any other position stands for the last one before it that is the position of an offset, and
      that is on its line. -/
  clamps : ∀ p o, s.byteAt? p = some o → ∃ r, s.positionAt? o = some r ∧ r.line = p.line ∧ r ≤ p ∧
    ∀ b q, b ≤ s.utf8Length → s.positionAt? b = some q → q ≤ p → q ≤ r
  /-- The line of an offset is the last one that begins at it or before it, and the column counts
      the units from there. -/
  line_column : ∀ b q, b ≤ s.utf8Length → s.positionAt? b = some q →
    ∃ start between, s.lineStart? q.line = some start ∧ s.slice? start b = some between ∧
      q.character = between.utf16Length ∧
      ∀ n next, s.lineStart? n = some next → next ≤ b → n ≤ q.line

/-- Offsets and positions of a text are adjoint, whatever characters and line ends are in it. -/
theorem locatesBothWays (s : Text) : s.LocatesBothWays := by
  constructor
  case isSome_byteAt? => exact isSome_byteAt?_iff s
  case hasSeam_byteAt? =>
    intro p o ho
    exact hasSeam_of_byteAt? ho
  case isSome_positionAt? =>
    intro b hb
    exact isSome_positionAt? hb
  case positionAt?_le_iff =>
    intro b q p o hb hq ho
    exact positionAt?_le_iff hq hb ho
  case positionAt?_lt_iff =>
    intro a b p q ha hb hp hq
    rw [← not_le, ← not_le, positionAt?_le_positionAt?_iff hq hp, Nat.min_eq_left ha,
      Nat.min_eq_left hb]
  case byteAt?_positionAt? =>
    intro b q hb hq
    exact byteAt?_of_positionAt? hq hb
  case clamps =>
    intro p o ho
    have hseam := hasSeam_of_byteAt? ho
    obtain ⟨r, hr⟩ := Option.isSome_iff_exists.1 ((isSome_positionAt? hseam.le).2 hseam)
    refine ⟨r, hr, line_of_byteAt? ho hr, ?_, ?_⟩
    · exact (positionAt?_le_iff hr hseam.le ho).2 (Nat.le_refl o)
    · intro b q hb hq hqp
      exact positionAt?_mono hq hr ((positionAt?_le_iff hq hb ho).1 hqp)
  case line_column =>
    intro b q hb hq
    obtain ⟨start, hstart, hle⟩ := exists_lineStart? (byteAt?_of_positionAt? hq hb)
    obtain ⟨between, hbetween, hcolumn⟩ := exists_slice?_of_lineStart? hq hb hstart hle
    refine ⟨start, between, hstart, hbetween, hcolumn, ?_⟩
    intro n next hnext hbefore
    exact le_line_of_lineStart? hnext hq hbefore

/-- A column past the end of its line stops in front of the line feed, and one inside a surrogate
    pair in front of the pair. -/
example :
    let s : Text := ['a', '\r', '\n', '𝒳', 'b']
    s.byteAt? ⟨0, 9⟩ = some 2 ∧ s.byteAt? ⟨1, 1⟩ = some 3 ∧ s.byteAt? ⟨2, 0⟩ = none ∧
      s.positionAt? 7 = some ⟨1, 2⟩ ∧ s.positionAt? 4 = none := by
  decide

end Worksheet.Text
