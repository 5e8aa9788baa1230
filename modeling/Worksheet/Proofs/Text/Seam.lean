import Mathlib.Data.List.Basic
import Worksheet.Position

/-! # Seams of a text

  A seam is a place where a text is put together from two parts. The byte offset of a seam always
  falls between two characters, so everything that cuts a text at an offset succeeds there, and
  gives back the parts. Later developments never look into the cutting functions: they write a text
  as an append and use the lemmas of this module.
-/

namespace Worksheet.Text

/-! ### Cutting at a seam -/

@[simp] theorem takeBytes?_zero (s : Text) : takeBytes? s 0 = some [] := by
  cases s <;> rfl

@[simp] theorem dropBytes?_zero (s : Text) : dropBytes? s 0 = some s := by
  cases s <;> rfl

/-- The first character has been taken once its bytes are. -/
theorem takeBytes?_cons_add (c : Char) (s : Text) (n : Nat) :
    takeBytes? (c :: s) (c.utf8Size + n) = (takeBytes? s n).map (c :: ·) := by
  have hpos := c.utf8Size_pos
  obtain ⟨m, hm⟩ : ∃ m, c.utf8Size + n = m + 1 := ⟨c.utf8Size + n - 1, by omega⟩
  rw [hm, takeBytes?, if_pos (by omega), show m + 1 - c.utf8Size = n by omega]

theorem dropBytes?_cons_add (c : Char) (s : Text) (n : Nat) :
    dropBytes? (c :: s) (c.utf8Size + n) = dropBytes? s n := by
  have hpos := c.utf8Size_pos
  obtain ⟨m, hm⟩ : ∃ m, c.utf8Size + n = m + 1 := ⟨c.utf8Size + n - 1, by omega⟩
  rw [hm, dropBytes?, if_pos (by omega), show m + 1 - c.utf8Size = n by omega]

@[simp] theorem takeBytes?_append (s t : Text) : takeBytes? (s ++ t) (utf8Length s) = some s := by
  induction s with
  | nil => simp
  | cons c s ih => rw [List.cons_append, utf8Length_cons, takeBytes?_cons_add, ih]; rfl

@[simp] theorem dropBytes?_append (s t : Text) : dropBytes? (s ++ t) (utf8Length s) = some t := by
  induction s with
  | nil => simp
  | cons c s ih => rw [List.cons_append, utf8Length_cons, dropBytes?_cons_add, ih]

/-- The bytes between two seams are the text between them. -/
theorem slice?_append (before s after : Text) :
    slice? (before ++ s ++ after) (utf8Length before) (utf8Length before + utf8Length s) =
      some s := by
  unfold slice?
  rw [if_pos (by omega), List.append_assoc, dropBytes?_append, Nat.add_sub_cancel_left]
  exact takeBytes?_append s after

/-! ### Offsets at which a text can be cut -/

/-- An offset is that of a seam: it falls between two characters, or on an end of the text. -/
def HasSeam (s : Text) (n : Nat) : Prop := ∃ u v, s = u ++ v ∧ n = utf8Length u

theorem HasSeam.le {s : Text} {n : Nat} (h : s.HasSeam n) : n ≤ utf8Length s := by
  obtain ⟨u, v, rfl, rfl⟩ := h
  rw [utf8Length_append]
  exact Nat.le_add_right _ _

theorem hasSeam_utf8Length (s : Text) : s.HasSeam (utf8Length s) :=
  ⟨s, [], (List.append_nil s).symm, rfl⟩

theorem eq_append_of_takeBytes? {s t : Text} {n : Nat} (h : takeBytes? s n = some t) :
    ∃ rest, s = t ++ rest ∧ n = utf8Length t := by
  induction s generalizing n t with
  | nil =>
    cases n with
    | zero =>
      obtain rfl := Option.some.inj h
      exact ⟨[], rfl, rfl⟩
    | succ n => exact nomatch h
  | cons c s ih =>
    cases n with
    | zero =>
      obtain rfl := Option.some.inj h
      exact ⟨c :: s, rfl, rfl⟩
    | succ n =>
      rw [takeBytes?] at h
      split at h
      · obtain ⟨t, ht, rfl⟩ := Option.map_eq_some_iff.1 h
        obtain ⟨rest, rfl, hlength⟩ := ih ht
        exact ⟨rest, rfl, by rw [utf8Length_cons]; omega⟩
      · exact nomatch h

/-- A text can be cut where it has a seam, and nowhere else. -/
theorem isSome_takeBytes? (s : Text) (n : Nat) : (s.takeBytes? n).isSome ↔ s.HasSeam n := by
  constructor
  · intro h
    obtain ⟨t, ht⟩ := Option.isSome_iff_exists.1 h
    obtain ⟨rest, hs, hn⟩ := eq_append_of_takeBytes? ht
    exact ⟨t, rest, hs, hn⟩
  · rintro ⟨u, v, rfl, rfl⟩
    rw [takeBytes?_append]
    rfl

theorem eq_append_of_dropBytes? {s rest : Text} {n : Nat} (h : dropBytes? s n = some rest) :
    ∃ before, s = before ++ rest ∧ n = utf8Length before := by
  induction s generalizing n with
  | nil =>
    cases n with
    | zero =>
      obtain rfl := Option.some.inj h
      exact ⟨[], rfl, rfl⟩
    | succ n => exact nomatch h
  | cons c s ih =>
    cases n with
    | zero =>
      obtain rfl := Option.some.inj h
      exact ⟨[], rfl, rfl⟩
    | succ n =>
      rw [dropBytes?] at h
      split at h
      · obtain ⟨before, rfl, hlength⟩ := ih h
        exact ⟨c :: before, rfl, by rw [utf8Length_cons]; omega⟩
      · exact nomatch h

/-- What is sliced out of a text lies between two seams of it. -/
theorem eq_append_of_slice? {s t : Text} {start stop : Nat} (h : slice? s start stop = some t) :
    ∃ before after, s = before ++ t ++ after ∧ start = utf8Length before ∧
      stop = utf8Length (before ++ t) := by
  unfold slice? at h
  split at h
  · obtain ⟨rest, hdrop, htake⟩ := Option.bind_eq_some_iff.1 h
    obtain ⟨before, rfl, hstart⟩ := eq_append_of_dropBytes? hdrop
    obtain ⟨after, rfl, hlength⟩ := eq_append_of_takeBytes? htake
    refine ⟨before, after, (List.append_assoc _ _ _).symm, hstart, ?_⟩
    rw [utf8Length_append]
    omega
  · exact nomatch h

/-- Of two front parts of a text the one with no more bytes is a front part of the other. -/
theorem exists_append_of_utf8Length_le {u v w rest : Text} (h : u ++ v = w ++ rest)
    (hle : utf8Length w ≤ utf8Length u) : ∃ between, u = w ++ between := by
  rcases List.append_eq_append_iff.1 h with ⟨z, rfl, -⟩ | ⟨z, hz, -⟩
  · -- what the longer part has more has no bytes
    cases z with
    | nil => exact ⟨[], by simp⟩
    | cons c z =>
      have hpos := c.utf8Size_pos
      simp only [utf8Length_append, utf8Length_cons] at hle
      omega
  · exact ⟨z, hz⟩

/-! ### Positions of seams -/

/-- The position of a seam is reached by going through the text before it. -/
theorem positionAt?_append (s t : Text) :
    positionAt? (s ++ t) (utf8Length s) = some (Position.zero.advance s) := by
  unfold positionAt?
  rw [utf8Length_append, Nat.min_eq_left (by omega), takeBytes?_append]
  rfl

/-- The range between two seams. -/
theorem rangeOf?_append (before s after : Text) :
    rangeOf? (before ++ s ++ after) ⟨utf8Length before, utf8Length (before ++ s)⟩ =
      some ⟨⟨utf8Length before, utf8Length (before ++ s)⟩,
        Position.zero.advance before, Position.zero.advance (before ++ s)⟩ := by
  unfold rangeOf?
  rw [positionAt?_append (before ++ s) after, List.append_assoc, positionAt?_append before]
  rfl

/-! ### Searching at the right place -/

/-- A text that begins with the needle is cut right there. -/
theorem cut?_append (needle s : Text) : cut? needle (needle ++ s) = some ([], s) := by
  have h : needle.isPrefixOf? (needle ++ s) = some s :=
    List.isPrefixOf?_eq_some_iff_append_eq.2 rfl
  revert h
  generalize needle ++ s = text
  intro h
  cases text with
  | nil => rw [cut?, h]; rfl
  | cons c text => rw [cut?, h]

end Worksheet.Text
