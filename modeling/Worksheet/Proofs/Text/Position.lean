import Mathlib.Data.List.TakeWhile
import Mathlib.Order.Defs.LinearOrder
import Worksheet.Proofs.Text.Seam

/-! # Positions and byte offsets

  A text is gone through character by character, and every character moves the position on. So
  positions of seams are in the order of the seams, and a position in a document divides a text into
  the part that lies up to it and the part behind (`Position.Divides`). The byte offset of a
  position is the length of the first part, in a whole text as in a content that begins in the
  middle of it. That settles how the two offsets are related, also for columns past the end of
  a line and inside a surrogate pair.
-/

namespace Worksheet

/-! ### The order of positions -/

namespace Position

theorem le_def {p q : Position} :
    p ≤ q ↔ p.line < q.line ∨ p.line = q.line ∧ p.character ≤ q.character := Iff.rfl

theorem lt_def {p q : Position} :
    p < q ↔ p.line < q.line ∨ p.line = q.line ∧ p.character < q.character := Iff.rfl

instance : LinearOrder Position where
  le_refl p := .inr ⟨rfl, Nat.le_refl _⟩
  le_trans p q r := by
    simp only [le_def]
    omega
  lt_iff_le_not_ge p q := by
    simp only [le_def, lt_def]
    omega
  le_antisymm p q := by
    cases p
    cases q
    simp only [le_def, mk.injEq]
    omega
  le_total p q := by
    simp only [le_def]
    omega
  toDecidableLE := inferInstance
  toDecidableEq := inferInstance
  toDecidableLT := inferInstance

/-- Every character moves the position on. -/
theorem lt_step (q : Position) (c : Char) : q < q.step c := by
  unfold step
  split
  · exact .inl (Nat.lt_succ_self _)
  · refine .inr ⟨rfl, ?_⟩
    show q.character < q.character + Text.utf16Size c
    unfold Text.utf16Size
    split <;> omega

theorem le_advance (q : Position) (s : Text) : q ≤ q.advance s := by
  induction s generalizing q with
  | nil => exact le_refl q
  | cons c s ih => exact le_trans (le_of_lt (lt_step q c)) (ih _)

theorem advance_le_advance_append (q : Position) (s t : Text) :
    q.advance s ≤ q.advance (s ++ t) := by
  rw [advance_append]
  exact le_advance _ t

/-- Lines are counted by line feeds. -/
theorem line_advance (q : Position) (s : Text) : (q.advance s).line = q.line + s.count '\n' := by
  induction s generalizing q with
  | nil => rfl
  | cons c s ih =>
    rw [advance_cons, ih, List.count_cons]
    by_cases h : c = '\n'
    · simp only [step, h, if_true, beq_self_eq_true]
      omega
    · simp only [step, h, if_false, beq_iff_eq, Nat.add_zero]

/-- Within a line only the column moves. -/
theorem advance_of_not_mem {q : Position} {s : Text} (h : '\n' ∉ s) :
    q.advance s = ⟨q.line, q.character + s.utf16Length⟩ := by
  induction s generalizing q with
  | nil => rfl
  | cons c s ih =>
    have hc : c ≠ '\n' := fun hc => h (hc ▸ List.mem_cons_self)
    rw [advance_cons, ih fun hs => h (List.mem_cons_of_mem _ hs)]
    simp only [step, hc, if_false, Text.utf16Length, Nat.add_assoc]

/-! ### Dividing a text at a position -/

/-- Read from `q` on, `u` is as much of a text as lies up to `p`, and `v` is what follows. -/
structure Divides (q p : Position) (u v : Text) : Prop where
  le : q.advance u ≤ p
  lt : ∀ c ∈ v.head?, p < (q.advance u).step c

/-- Right behind a part of a text, the position divides the text into that part and the rest. -/
theorem divides_advance (q : Position) (u v : Text) : q.Divides (q.advance u) u v :=
  ⟨le_refl _, fun c _ => lt_step _ c⟩

/-- A part at the beginning of the text lies up to the position if and only if it is no longer than
    the first part of the division. -/
theorem Divides.advance_le_iff {q p : Position} {u v x y : Text} (h : q.Divides p u v)
    (htext : u ++ v = x ++ y) : q.advance x ≤ p ↔ x.utf8Length ≤ u.utf8Length := by
  rcases List.append_eq_append_iff.1 htext with ⟨z, rfl, hv⟩ | ⟨z, rfl, -⟩
  · -- the part goes beyond `u`, by `z`
    cases z with
    | nil => simpa using h.le
    | cons c z =>
      have hlt := h.lt c (by rw [hv]; rfl)
      have hle : (q.advance u).step c ≤ q.advance (u ++ c :: z) := by
        rw [advance_append, advance_cons]
        exact le_advance _ z
      have hpos := c.utf8Size_pos
      constructor
      · intro hx
        exact absurd (lt_of_lt_of_le hlt hle) (not_lt_of_ge hx)
      · intro hx
        simp only [Text.utf8Length_append, Text.utf8Length_cons] at hx
        omega
  · -- the part ends within `u`
    constructor
    · intro _
      simp
    · intro _
      exact le_trans (advance_le_advance_append q x z) h.le

/-- A text is divided at a position in one way only. -/
theorem Divides.utf8Length_eq {q p : Position} {u v u' v' : Text} (h : q.Divides p u v)
    (h' : q.Divides p u' v') (htext : u ++ v = u' ++ v') : u.utf8Length = u'.utf8Length :=
  Nat.le_antisymm ((h'.advance_le_iff htext.symm).1 h.le) ((h.advance_le_iff htext).1 h'.le)

/-- What divides a content at a position up to its end divides the text that the content is in. -/
theorem Divides.extend {q p : Position} {u v : Text} (before after : Text)
    (h : (q.advance before).Divides p u v) (hp : p ≤ (q.advance before).advance (u ++ v)) :
    q.Divides p (before ++ u) (v ++ after) := by
  refine ⟨by rw [advance_append]; exact h.le, ?_⟩
  rw [advance_append]
  cases v with
  | cons c v => exact h.lt
  | nil =>
    intro c _
    rw [List.append_nil] at hp
    exact lt_of_le_of_lt hp (lt_step _ c)

end Position

namespace Range

theorem contains_iff {r : Range} {p : Position} :
    r.contains p = true ↔ r.start ≤ p ∧ p ≤ r.stop := by
  simp [contains]

theorem containsHalfOpen_iff {r : Range} {p : Position} :
    r.containsHalfOpen p = true ↔ r.start ≤ p ∧ p < r.stop := by
  simp [containsHalfOpen]

end Range

/-! ### Lines and columns -/

namespace Text

/-- A column of a line is behind as much of the line as has so many units. -/
theorem columnOffset_spec (line : Text) (k : Nat) :
    ∃ u v, line = u ++ v ∧ columnOffset line k = u.utf8Length ∧ u.utf16Length ≤ k ∧
      ∀ c ∈ v.head?, k < u.utf16Length + utf16Size c := by
  induction line generalizing k with
  | nil => exact ⟨[], [], rfl, rfl, Nat.zero_le k, by simp⟩
  | cons c line ih =>
    by_cases h : utf16Size c ≤ k
    · obtain ⟨u, v, rfl, hoffset, hle, hlt⟩ := ih (k - utf16Size c)
      refine ⟨c :: u, v, rfl, ?_, ?_, ?_⟩
      · rw [columnOffset, if_pos h, hoffset, utf8Length_cons]
      · simp only [utf16Length]
        omega
      · intro d hd
        have := hlt d hd
        simp only [utf16Length]
        omega
    · refine ⟨[], c :: line, rfl, ?_, Nat.zero_le k, ?_⟩
      · rw [columnOffset, if_neg h, utf8Length_nil]
      · intro d hd
        obtain rfl := Option.some.inj hd
        simp only [utf16Length]
        omega

/-- What is dropped with the first lines ends at the beginning of a line. -/
theorem eq_append_of_dropLines? {s rest : Text} {n before : Nat}
    (h : s.dropLines? n = some (before, rest)) :
    ∃ w, s = w ++ rest ∧ before = w.utf8Length ∧
      ∀ q : Position, q.advance w = if n = 0 then q else ⟨q.line + n, 0⟩ := by
  induction s generalizing n before with
  | nil =>
    cases n with
    | zero =>
      obtain ⟨rfl, rfl⟩ := Prod.mk.inj (Option.some.inj h)
      exact ⟨[], rfl, rfl, fun q => rfl⟩
    | succ n => exact nomatch h
  | cons c s ih =>
    cases n with
    | zero =>
      obtain ⟨rfl, rfl⟩ := Prod.mk.inj (Option.some.inj h)
      exact ⟨[], rfl, rfl, fun q => rfl⟩
    | succ n =>
      rw [dropLines?] at h
      obtain ⟨⟨b, r⟩, hdrop, hpair⟩ := Option.map_eq_some_iff.1 h
      obtain ⟨rfl, rfl⟩ := Prod.mk.inj hpair
      obtain ⟨w, rfl, rfl, hw⟩ := ih hdrop
      refine ⟨c :: w, rfl, rfl, fun q => ?_⟩
      rw [Position.advance_cons, hw, if_neg (Nat.succ_ne_zero n)]
      by_cases hc : c = '\n'
      · -- the line feed begins a line, after which fewer lines are to be dropped
        rw [if_pos hc]
        simp only [Position.step, hc, if_true]
        split
        · next hn => rw [hn]
        · rw [Nat.add_assoc, Nat.add_comm 1]
      · rw [if_neg hc, if_neg (Nat.succ_ne_zero n)]
        simp only [Position.step, hc, if_false]

/-- There are as many lines to drop as there are line feeds. -/
theorem isSome_dropLines? (s : Text) (n : Nat) : (s.dropLines? n).isSome ↔ n ≤ s.count '\n' := by
  induction s generalizing n with
  | nil => cases n <;> simp [dropLines?]
  | cons c s ih =>
    cases n with
    | zero => simp [dropLines?]
    | succ n =>
      rw [dropLines?, Option.isSome_map, ih, List.count_cons]
      by_cases hc : c = '\n'
      · simp only [hc, if_true, beq_self_eq_true]
        omega
      · simp only [hc, if_false, beq_iff_eq, Nat.add_zero]

theorem eq_firstLine_append (s : Text) :
    ∃ rest, s = firstLine s ++ rest ∧ '\n' ∉ firstLine s ∧ ∀ c ∈ rest.head?, c = '\n' := by
  refine ⟨s.dropWhile (· ≠ '\n'), List.takeWhile_append_dropWhile.symm, ?_, ?_⟩
  · intro h
    simpa using List.mem_takeWhile_imp h
  · intro c hc
    have h := List.head?_dropWhile_not (· ≠ '\n') s
    rw [hc] at h
    simpa using h

/-- The offset of a line and column, counted from a position on. -/
theorem divides_of_offsetAt? {s : Text} {n k o : Nat} (h : s.offsetAt? n k = some o)
    (q : Position) :
    ∃ u v, s = u ++ v ∧ o = u.utf8Length ∧
      q.Divides ⟨q.line + n, if n = 0 then q.character + k else k⟩ u v := by
  obtain ⟨⟨before, rest⟩, hdrop, rfl⟩ := Option.map_eq_some_iff.1 h
  obtain ⟨w, rfl, rfl, hw⟩ := eq_append_of_dropLines? hdrop
  obtain ⟨tail, hrest, hline, htail⟩ := eq_firstLine_append rest
  obtain ⟨u, v, huv, hoffset, hle, hlt⟩ := columnOffset_spec (firstLine rest) k
  have hu : '\n' ∉ u := fun hmem => hline (huv ▸ List.mem_append_left v hmem)
  -- the column is counted from where the line begins, or from `q` in the first line
  have htarget : (⟨q.line + n, if n = 0 then q.character + k else k⟩ : Position) =
      ⟨(q.advance w).line, (q.advance w).character + k⟩ := by
    rw [hw]
    by_cases hn : n = 0 <;> simp [hn]
  refine ⟨w ++ u, v ++ tail, ?_, ?_, ?_⟩
  · rw [List.append_assoc, ← List.append_assoc u, ← huv, ← hrest]
  · rw [utf8Length_append]
    exact congrArg _ hoffset
  · rw [htarget]
    constructor
    · rw [Position.advance_append, Position.advance_of_not_mem hu]
      exact .inr ⟨rfl, Nat.add_le_add_left hle _⟩
    · intro c hc
      rw [Position.advance_append, Position.advance_of_not_mem hu]
      cases v with
      | cons d v =>
        -- another character of the line
        obtain rfl := Option.some.inj hc
        have hd : d ≠ '\n' := by
          intro hd
          exact hline (huv ▸ List.mem_append_right u (hd ▸ List.mem_cons_self))
        have := hlt d rfl
        simp only [Position.step, hd, if_false]
        exact .inr ⟨rfl, by simp only; omega⟩
      | nil =>
        -- the end of the line
        obtain rfl := htail c hc
        exact .inl (Nat.lt_succ_self _)

/-! ### Offsets of positions -/

/-- The byte offset of a position is the length of what lies up to it. -/
theorem divides_of_byteAt? {s : Text} {p : Position} {b : Nat} (h : s.byteAt? p = some b) :
    ∃ u v, s = u ++ v ∧ b = u.utf8Length ∧ Position.zero.Divides p u v := by
  obtain ⟨u, v, hs, hb, hdivides⟩ := divides_of_offsetAt? h .zero
  refine ⟨u, v, hs, hb, ?_⟩
  have hp : (⟨Position.zero.line + p.line,
      if p.line = 0 then Position.zero.character + p.character else p.character⟩ : Position) =
      p := by
    simp [Position.zero]
  rwa [hp] at hdivides

theorem isSome_byteAt? (s : Text) (p : Position) :
    (s.byteAt? p).isSome ↔ p.line ≤ s.count '\n' := by
  unfold byteAt? offsetAt?
  rw [Option.isSome_map, isSome_dropLines?]

/-- The offset into a content is the length of what lies up to the position, where the content is
    read from its own start. -/
theorem divides_of_offsetIn? {content : Text} {r : Range} {p : Position} {o : Nat}
    (h : content.offsetIn? r p = some o) :
    r.contains p = true ∧
      ∃ u v, content = u ++ v ∧ o = u.utf8Length ∧ r.start.Divides p u v := by
  unfold offsetIn? at h
  by_cases hcontains : r.contains p = true
  · refine ⟨hcontains, ?_⟩
    rw [if_pos hcontains] at h
    have hle := Position.le_def.1 (Range.contains_iff.1 hcontains).1
    by_cases hline : p.line - r.start.line = 0
    · rw [if_pos hline] at h
      by_cases hcolumn : r.start.character ≤ p.character
      · rw [if_pos hcolumn] at h
        obtain ⟨u, v, hs, ho, hdivides⟩ := divides_of_offsetAt? h r.start
        refine ⟨u, v, hs, ho, ?_⟩
        have hl : r.start.line + 0 = p.line := by omega
        have hc : r.start.character + (p.character - r.start.character) = p.character := by omega
        rwa [if_pos rfl, hl, hc] at hdivides
      · rw [if_neg hcolumn] at h
        exact nomatch h
    · rw [if_neg hline] at h
      obtain ⟨u, v, hs, ho, hdivides⟩ := divides_of_offsetAt? h r.start
      refine ⟨u, v, hs, ho, ?_⟩
      have hl : r.start.line + (p.line - r.start.line) = p.line := by omega
      rwa [if_neg hline, hl] at hdivides
  · rw [if_neg hcontains] at h
    exact nomatch h

/-- Every position in the range of a content has an offset. -/
theorem isSome_offsetIn? {content : Text} {r : Range} {p : Position}
    (hstop : r.stop = r.start.advance content) (hp : r.contains p = true) :
    (content.offsetIn? r p).isSome := by
  have hends := Range.contains_iff.1 hp
  rw [Position.le_def, Position.le_def, hstop, Position.line_advance] at hends
  unfold offsetIn?
  rw [if_pos hp]
  by_cases hline : p.line - r.start.line = 0
  · rw [if_pos hline, if_pos (by omega), offsetAt?, Option.isSome_map, isSome_dropLines?]
    exact Nat.zero_le _
  · rw [if_neg hline, offsetAt?, Option.isSome_map, isSome_dropLines?]
    omega

end Text

end Worksheet
