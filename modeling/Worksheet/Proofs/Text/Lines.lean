import Worksheet.Text

/-! # Lines of a text

  A text without carriage returns has the lines that it is split into at its line feeds, as far as
  each of them is ended.
-/

namespace Worksheet.Text

/-! ### Splitting into lines -/

theorem lines_cons {c : Char} (hcr : c ≠ '\r') (hlf : c ≠ '\n') {s : Text} {ls : List Text}
    (hne : ls ≠ []) (hs : lines s = ls) : lines (c :: s) = ls.modifyHead (c :: ·) := by
  have hlines := lines.eq_4 c s (fun h => hlf h) (fun _ h _ => hcr h)
  obtain ⟨line, rest, rfl⟩ := List.exists_cons_of_ne_nil hne
  rw [hlines, hs]
  rfl

/-- A text that a line feed follows is read as the lines it is split into. -/
theorem lines_append {s : Text} (hs : '\r' ∉ s) (after : Text) :
    lines (s ++ '\n' :: after) = s.splitOn '\n' ++ lines after := by
  induction s with
  | nil => rfl
  | cons c s ih =>
    have hcr : c ≠ '\r' := fun h => hs (h ▸ List.mem_cons_self)
    have hrest : '\r' ∉ s := fun h => hs (List.mem_cons_of_mem _ h)
    rw [List.splitOn_cons_eq_if_modifyHead]
    by_cases hlf : c = '\n'
    · -- the line ends here
      subst hlf
      rw [if_pos (beq_self_eq_true _)]
      exact congrArg ([] :: ·) (ih hrest)
    · have hbeq : ¬(c == '\n') = true := fun h => hlf (eq_of_beq h)
      obtain ⟨line, ls, hsplit⟩ := List.exists_cons_of_ne_nil (List.splitOn_ne_nil '\n' s)
      -- the character goes into the first line of what follows
      rw [if_neg hbeq]
      show lines (c :: (s ++ '\n' :: after)) = _
      rw [lines_cons hcr hlf ?_ (ih hrest), hsplit]
      · rfl
      · rw [hsplit]
        exact List.cons_ne_nil _ _

/-- A single line that a line feed follows. -/
theorem lines_line_append {line : Text} (hcr : '\r' ∉ line) (hlf : '\n' ∉ line) (after : Text) :
    lines (line ++ '\n' :: after) = line :: lines after := by
  rw [lines_append hcr, List.splitOn_eq_singleton hlf]
  rfl

/-- Splitting puts no character into a line. -/
theorem mem_of_mem_splitOn {s line : Text} {c sep : Char} (hline : line ∈ s.splitOn sep)
    (hc : c ∈ line) : c ∈ s := by
  induction s generalizing line with
  | nil =>
    obtain rfl := List.mem_singleton.1 hline
    exact nomatch hc
  | cons x s ih =>
    rw [List.splitOn_cons_eq_if_modifyHead] at hline
    by_cases hx : (x == sep) = true
    · rw [if_pos hx] at hline
      rcases List.mem_cons.1 hline with rfl | hline
      · exact nomatch hc
      · exact List.mem_cons_of_mem _ (ih hline hc)
    · rw [if_neg hx] at hline
      obtain ⟨first, ls, hsplit⟩ := List.exists_cons_of_ne_nil (List.splitOn_ne_nil sep s)
      rw [hsplit] at hline ih
      rcases List.mem_cons.1 hline with rfl | hline
      · rcases List.mem_cons.1 hc with rfl | hc
        · exact List.mem_cons_self
        · exact List.mem_cons_of_mem _ (ih List.mem_cons_self hc)
      · exact List.mem_cons_of_mem _ (ih (List.mem_cons_of_mem _ hline) hc)

/-- A line has no line feed in it, and nothing that is not in the text. -/
theorem subset_of_mem_lines {s line : Text} (hline : line ∈ lines s) :
    '\n' ∉ line ∧ line ⊆ s := by
  fun_induction lines s generalizing line with
  | case1 => exact nomatch hline
  | case2 s ih =>
    rcases List.mem_cons.1 hline with rfl | hline
    · exact ⟨List.not_mem_nil, List.nil_subset _⟩
    · exact ⟨(ih hline).1, List.Subset.trans (ih hline).2 (List.subset_cons_self _ _)⟩
  | case3 s ih =>
    rcases List.mem_cons.1 hline with rfl | hline
    · exact ⟨List.not_mem_nil, List.nil_subset _⟩
    · exact ⟨(ih hline).1, fun c hc => List.mem_cons_of_mem _
        (List.mem_cons_of_mem _ ((ih hline).2 hc))⟩
  | case4 c s hlf hcr hnil ih =>
    obtain rfl := List.mem_singleton.1 hline
    exact ⟨List.not_mem_cons_of_ne_of_not_mem (Ne.symm hlf) List.not_mem_nil,
      List.cons_subset_cons c (List.nil_subset s)⟩
  | case5 c s hlf hcr first rest hsplit ih =>
    rw [hsplit] at ih
    rcases List.mem_cons.1 hline with rfl | hline
    · -- the character goes into the first line of what follows
      obtain ⟨hfirst, hsub⟩ := ih List.mem_cons_self
      exact ⟨List.not_mem_cons_of_ne_of_not_mem (Ne.symm hlf) hfirst, List.cons_subset_cons c hsub⟩
    · obtain ⟨hother, hsub⟩ := ih (List.mem_cons_of_mem _ hline)
      exact ⟨hother, List.Subset.trans hsub (List.subset_cons_self c s)⟩

theorem joinLines_splitOn (s : Text) : joinLines (s.splitOn '\n') = s :=
  List.intercalate_splitOn '\n'

theorem joinLines_cons (line : Text) {ls : List Text} (hls : ls ≠ []) :
    joinLines (line :: ls) = line ++ '\n' :: joinLines ls := by
  unfold joinLines
  rw [List.intercalate_cons_of_ne_nil hls, List.append_assoc]
  rfl

theorem joinLines_append {ls ls' : List Text} (hls : ls ≠ []) (hls' : ls' ≠ []) :
    joinLines (ls ++ ls') = joinLines ls ++ '\n' :: joinLines ls' := by
  induction ls with
  | nil => exact absurd rfl hls
  | cons line rest ih =>
    cases rest with
    | nil =>
      have hline : joinLines [line] = line := List.intercalate_singleton
      rw [List.cons_append, List.nil_append, joinLines_cons line hls', hline]
    | cons next rest =>
      have hne : next :: rest ≠ [] := List.cons_ne_nil _ _
      have hne' : next :: rest ++ ls' ≠ [] := List.cons_ne_nil _ _
      rw [List.cons_append, joinLines_cons line hne', ih hne, joinLines_cons line hne,
        List.append_assoc]
      rfl

/-- Lines that a line feed follows each are the joined lines and one more line feed. -/
theorem flatMap_lf {ls : List Text} (hls : ls ≠ []) :
    ls.flatMap (· ++ ['\n']) = joinLines ls ++ ['\n'] := by
  induction ls with
  | nil => exact absurd rfl hls
  | cons line rest ih =>
    rw [List.flatMap_cons]
    cases rest with
    | nil => rw [List.flatMap_nil, List.append_nil, joinLines, List.intercalate_singleton]
    | cons next rest =>
      rw [ih (List.cons_ne_nil _ _), joinLines_cons line (List.cons_ne_nil _ _)]
      simp only [List.append_assoc, List.cons_append, List.nil_append]

/-- Joining puts nothing but line feeds between the lines. -/
theorem mem_of_mem_joinLines {ls : List Text} {c : Char} (h : c ∈ joinLines ls) :
    c = '\n' ∨ ∃ line ∈ ls, c ∈ line := by
  induction ls with
  | nil => exact nomatch h
  | cons line rest ih =>
    cases rest with
    | nil =>
      rw [joinLines, List.intercalate_singleton] at h
      exact .inr ⟨line, List.mem_cons_self, h⟩
    | cons next rest =>
      rw [joinLines_cons line (List.cons_ne_nil _ _)] at h
      rcases List.mem_append.1 h with h | h
      · exact .inr ⟨line, List.mem_cons_self, h⟩
      · rcases List.mem_cons.1 h with rfl | h
        · exact .inl rfl
        · rcases ih h with hc | ⟨line', hline', hc⟩
          · exact .inl hc
          · exact .inr ⟨line', List.mem_cons_of_mem _ hline', hc⟩

/-- More lines make a longer text. -/
theorem joinLines_append_eq_iff {ls ls' : List Text} (hls : ls ≠ []) :
    joinLines (ls ++ ls') = joinLines ls ↔ ls' = [] := by
  constructor
  · intro h
    cases ls' with
    | nil => rfl
    | cons line rest =>
      rw [joinLines_append hls (List.cons_ne_nil line rest)] at h
      exact nomatch List.append_right_eq_self.1 h
  · rintro rfl
    rw [List.append_nil]

/-! ### Blanks at the end -/

theorem mem_of_mem_trimEnd {s : Text} {c : Char} (h : c ∈ trimEnd s) : c ∈ s :=
  List.mem_reverse.1 ((List.dropWhile_sublist _).mem (List.mem_reverse.1 h))

/-- No blank is left at the end. -/
theorem getLast?_trimEnd (s : Text) : (trimEnd s).getLast?.any isBlankChar = false := by
  unfold trimEnd
  rw [List.getLast?_reverse]
  have hhead := List.head?_dropWhile_not isBlankChar s.reverse
  cases hs : (s.reverse.dropWhile isBlankChar).head? with
  | none => rfl
  | some c =>
    rw [hs] at hhead
    exact hhead

/-- A text that does not end in a blank has none to be cut off. -/
theorem trimEnd_eq_self {s : Text} (h : s.getLast?.any isBlankChar = false) : trimEnd s = s := by
  unfold trimEnd
  rw [List.getLast?_eq_head?_reverse] at h
  cases hs : s.reverse with
  | nil => exact (List.reverse_eq_nil_iff.1 hs).symm
  | cons c rest =>
    rw [hs] at h
    have hc : isBlankChar c = false := h
    rw [List.dropWhile_cons_of_neg (Bool.not_eq_true _ ▸ hc), ← hs, List.reverse_reverse]

end Worksheet.Text
