import Worksheet.Text

/-! # The two forms of line end

  A line may end in a line feed alone or in a carriage return with a line feed. What scans a text
  and treats both characters alike finds the same in the text with the longer form
  (`Text.crlf`), and such a text has the same lines.
-/

namespace Worksheet.Text

/-- The text with a carriage return before every line feed. -/
def crlf : Text → Text
  | [] => []
  | c :: s => if c = '\n' then '\r' :: '\n' :: crlf s else c :: crlf s

@[simp] theorem crlf_nil : crlf [] = [] := rfl

@[simp] theorem crlf_lf (s : Text) : crlf ('\n' :: s) = '\r' :: '\n' :: crlf s := rfl

@[simp] theorem crlf_cons {c : Char} (hc : c ≠ '\n') (s : Text) : crlf (c :: s) = c :: crlf s :=
  if_neg hc

@[simp] theorem crlf_append (s t : Text) : crlf (s ++ t) = crlf s ++ crlf t := by
  induction s with
  | nil => rfl
  | cons c s ih =>
    by_cases hc : c = '\n'
    · subst hc
      simp [ih]
    · simp [hc, ih]

@[simp] theorem crlf_eq_nil_iff {s : Text} : crlf s = [] ↔ s = [] := by
  cases s with
  | nil => exact iff_of_true rfl rfl
  | cons c s =>
    by_cases hc : c = '\n'
    · subst hc
      simp
    · simp [hc]

/-- A text of one line stays as it is. -/
theorem crlf_eq_self {s : Text} (h : '\n' ∉ s) : crlf s = s := by
  induction s with
  | nil => rfl
  | cons c s ih =>
    obtain ⟨hc, hs⟩ := not_or.1 (mt List.mem_cons.2 h)
    rw [crlf_cons (Ne.symm hc), ih hs]

/-! ### What scans find -/

/-- A text within a line is found at the front in either form. -/
theorem isPrefixOf?_crlf {p : Text} (hcr : '\r' ∉ p) (hlf : '\n' ∉ p) (s : Text) :
    p.isPrefixOf? s.crlf = (p.isPrefixOf? s).map crlf := by
  induction p generalizing s with
  | nil => rfl
  | cons a p ih =>
    obtain ⟨hcra, hpcr⟩ := not_or.1 (mt List.mem_cons.2 hcr)
    obtain ⟨hlfa, hplf⟩ := not_or.1 (mt List.mem_cons.2 hlf)
    have hcons : ∀ (x : Char) (t : Text), (a :: p).isPrefixOf? (x :: t) =
        if a == x then p.isPrefixOf? t else none := fun _ _ => rfl
    have hnone : ∀ {x : Char}, x ≠ a → ∀ t : Text, (a :: p).isPrefixOf? (x :: t) = none := by
      intro x hx t
      rw [hcons, if_neg fun h => hx (eq_of_beq h).symm]
    cases s with
    | nil => rfl
    | cons c s =>
      by_cases hc : c = '\n'
      · -- neither of the two characters of the line end is in the text
        subst hc
        rw [crlf_lf, hnone hcra, hnone hlfa]
        rfl
      · rw [crlf_cons hc, hcons, hcons, ih hpcr hplf]
        split <;> rfl

variable {p : Char → Bool}

theorem takeWhile_crlf (h : p '\r' = p '\n') (s : Text) :
    s.crlf.takeWhile p = crlf (s.takeWhile p) := by
  induction s with
  | nil => rfl
  | cons c s ih =>
    by_cases hc : c = '\n'
    · subst hc
      by_cases ha : p '\n' = true
      · rw [crlf_lf, List.takeWhile_cons_of_pos (h.trans ha), List.takeWhile_cons_of_pos ha,
          List.takeWhile_cons_of_pos ha, ih, crlf_lf]
      · rw [crlf_lf, List.takeWhile_cons_of_neg (h ▸ ha), List.takeWhile_cons_of_neg ha, crlf_nil]
    · by_cases ha : p c = true
      · rw [crlf_cons hc, List.takeWhile_cons_of_pos ha, List.takeWhile_cons_of_pos ha, ih,
          crlf_cons hc]
      · rw [crlf_cons hc, List.takeWhile_cons_of_neg ha, List.takeWhile_cons_of_neg ha, crlf_nil]

theorem dropWhile_crlf (h : p '\r' = p '\n') (s : Text) :
    s.crlf.dropWhile p = crlf (s.dropWhile p) := by
  induction s with
  | nil => rfl
  | cons c s ih =>
    by_cases hc : c = '\n'
    · subst hc
      by_cases ha : p '\n' = true
      · rw [crlf_lf, List.dropWhile_cons_of_pos (h.trans ha), List.dropWhile_cons_of_pos ha,
          List.dropWhile_cons_of_pos ha, ih]
      · rw [crlf_lf, List.dropWhile_cons_of_neg (h ▸ ha), List.dropWhile_cons_of_neg ha, crlf_lf]
    · by_cases ha : p c = true
      · rw [crlf_cons hc, List.dropWhile_cons_of_pos ha, List.dropWhile_cons_of_pos ha, ih]
      · rw [crlf_cons hc, List.dropWhile_cons_of_neg ha, List.dropWhile_cons_of_neg ha,
          crlf_cons hc]

/-! ### Lines -/

/-- The lines are the same with either form of line end. -/
theorem lines_crlf {s : Text} (h : '\r' ∉ s) : lines s.crlf = lines s := by
  induction s with
  | nil => rfl
  | cons c s ih =>
    obtain ⟨hcr, hs⟩ := not_or.1 (mt List.mem_cons.2 h)
    by_cases hc : c = '\n'
    · subst hc
      rw [crlf_lf, lines, lines, ih hs]
    · rw [crlf_cons hc, lines.eq_4 c _ hc fun _ h _ => hcr h.symm,
        lines.eq_4 c _ hc fun _ h _ => hcr h.symm, ih hs]

end Worksheet.Text
