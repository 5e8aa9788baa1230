import Worksheet.Proofs.Area.Numbering
import Worksheet.Proofs.Region.Seam
import Worksheet.Proofs.Text.LineEnds

/-! # Regions in a text with the other line ends

  A marker either stays within a line or takes both forms of line end alike, blanks and titles
  included. So it is found in a text with the longer line ends where it was in the text, it
  consists of the same, and no marker begins between the two characters of a line end
  (`Marker.SeesThrough`). What every scan finds and what is read then carries over.
-/

namespace Worksheet

/-- A match in the text with the longer line ends. -/
def Match.crlf (m : Match) : Match := ⟨m.lexeme.crlf, m.title.crlf, m.rest.crlf⟩

/-! ### Markers -/

namespace Marker

/-- A marker whose fixed texts stay within a line. -/
def InLine : Marker → Prop
  | literal text => text ≠ [] ∧ '\r' ∉ text ∧ '\n' ∉ text
  | details opening closing =>
      opening ≠ [] ∧ ('\r' ∉ opening ∧ '\n' ∉ opening) ∧ '\r' ∉ closing ∧ '\n' ∉ closing
  | hintTag | fenceOpening | fenceClosing => True

instance decidableInLine : (m : Marker) → Decidable m.InLine
  | literal text => inferInstanceAs (Decidable (text ≠ [] ∧ '\r' ∉ text ∧ '\n' ∉ text))
  | details opening closing =>
      inferInstanceAs (Decidable (opening ≠ [] ∧ ('\r' ∉ opening ∧ '\n' ∉ opening) ∧
        '\r' ∉ closing ∧ '\n' ∉ closing))
  | hintTag | fenceOpening | fenceClosing => inferInstanceAs (Decidable True)

/-- A marker for which the form of line ends makes no difference. -/
structure SeesThrough (m : Marker) : Prop where
  /-- It is found with the longer line ends where it is found, and consists of the same. -/
  matchAt?_crlf : ∀ {s}, '\r' ∉ s → m.matchAt? s.crlf = (m.matchAt? s).map Match.crlf
  /-- It begins at the second character of a line end only where it also begins at the first. -/
  matchAt?_lf : ∀ {s}, m.matchAt? ('\r' :: '\n' :: s) = none → m.matchAt? ('\n' :: s) = none

theorem matchAt?_crlf_of_scan? {m : Marker} {s : Text}
    (h : m.scan? s.crlf = (m.scan? s).map Match.crlf) :
    m.matchAt? s.crlf = (m.matchAt? s).map Match.crlf := by
  unfold matchAt?
  rw [h]
  cases m.scan? s with
  | none => rfl
  | some found => by_cases hne : found.lexeme = [] <;> simp [Option.filter, Match.crlf, hne]

/-- A marker that begins with a fixed text within a line does not begin at a line end. -/
theorem seesThrough_of_front {m : Marker} (hfront : m.front ≠ []) (hlf : '\n' ∉ m.front)
    (hscan : ∀ s, m.scan? s.crlf = (m.scan? s).map Match.crlf) : m.SeesThrough where
  matchAt?_crlf _ := matchAt?_crlf_of_scan? (hscan _)
  matchAt?_lf _ := by
    refine matchAt?_eq_none_of_front ?_
    intro hprefix
    obtain ⟨c, front, hcons⟩ := List.exists_cons_of_ne_nil hfront
    rw [hcons] at hlf hprefix
    obtain ⟨rest, hrest⟩ := hprefix
    exact hlf ((List.cons.inj hrest).1 ▸ List.mem_cons_self)

theorem scan?_literal_crlf {text : Text} (hcr : '\r' ∉ text) (hlf : '\n' ∉ text) (s : Text) :
    (literal text).scan? s.crlf = ((literal text).scan? s).map Match.crlf := by
  show (text.isPrefixOf? s.crlf).map _ = ((text.isPrefixOf? s).map _).map _
  rw [Text.isPrefixOf?_crlf hcr hlf, Option.map_map, Option.map_map]
  simp only [Function.comp_def, Match.crlf, Text.crlf_eq_self hlf, Text.crlf_nil]

/-- A title ends within its line, whatever the form of line ends. -/
theorem upTo?_crlf {stop : Text} (hcr : '\r' ∉ stop) (hlf : '\n' ∉ stop) (s : Text) :
    upTo? stop s.crlf = (upTo? stop s).map (Prod.map Text.crlf Text.crlf) := by
  induction s with
  | nil =>
    have hnil := Text.isPrefixOf?_crlf hcr hlf []
    rw [Text.crlf_nil] at hnil
    rw [Text.crlf_nil, upTo?, Option.map_map]
    conv => lhs; rw [hnil, Option.map_map]
    rfl
  | cons c s ih =>
    have hstop := Text.isPrefixOf?_crlf hcr hlf (c :: s)
    by_cases hc : c = '\n'
    · subst hc
      rw [Text.crlf_lf] at hstop ⊢
      rw [upTo?, hstop]
      conv => rhs; rw [upTo?]
      cases stop.isPrefixOf? ('\n' :: s) <;> rfl
    · rw [Text.crlf_cons hc] at hstop ⊢
      rw [upTo?, hstop, ih]
      conv => rhs; rw [upTo?]
      cases stop.isPrefixOf? (c :: s) with
      | some rest => rfl
      | none =>
        by_cases hend : c = '\r' ∨ c = '\n'
        · simp only [Option.map_none, if_pos hend]
        · simp only [Option.map_none, if_neg hend, Option.map_map]
          simp only [Function.comp_def, Prod.map, Text.crlf_cons hc]

theorem scanDetails?_crlf {opening closing : Text} (h : (details opening closing).InLine)
    (s : Text) :
    scanDetails? opening closing s.crlf = (scanDetails? opening closing s).map Match.crlf := by
  obtain ⟨-, ⟨hocr, holf⟩, hccr, hclf⟩ := h
  unfold scanDetails?
  rw [Text.isPrefixOf?_crlf hocr holf]
  cases opening.isPrefixOf? s with
  | none => rfl
  | some s =>
    simp only [Option.map_some]
    rw [Text.isPrefixOf?_crlf (p := " : ".toList) (by decide) (by decide)]
    cases " : ".toList.isPrefixOf? s with
    | some s =>
      simp only [Option.map_some, upTo?_crlf hccr hclf, Option.map_map]
      simp only [Function.comp_def, Prod.map, Match.crlf, Text.crlf_append,
        Text.crlf_eq_self holf, Text.crlf_eq_self hclf,
        Text.crlf_eq_self (s := " : ".toList) (by decide)]
    | none =>
      simp only [Option.map_none, Text.isPrefixOf?_crlf hccr hclf, Option.map_map]
      simp only [Function.comp_def, Match.crlf, Text.crlf_append, Text.crlf_eq_self holf,
        Text.crlf_eq_self hclf, Text.crlf_nil]

theorem isBlankChar_cr : Text.isBlankChar '\r' = Text.isBlankChar '\n' := rfl

theorem titleAttribute?_crlf (s : Text) :
    titleAttribute? s.crlf =
      (titleAttribute? s).map (Prod.map Text.crlf (Prod.map Text.crlf Text.crlf)) := by
  have hquote : (decide ('\r' ≠ '"')) = decide ('\n' ≠ '"') := rfl
  unfold titleAttribute?
  simp only [Text.takeWhile_crlf isBlankChar_cr, Text.dropWhile_crlf isBlankChar_cr,
    Text.crlf_eq_nil_iff]
  by_cases hblanks : s.takeWhile Text.isBlankChar = []
  · rw [if_pos hblanks, if_pos hblanks]
    rfl
  · rw [if_neg hblanks, if_neg hblanks,
      Text.isPrefixOf?_crlf (p := "title=\"".toList) (by decide) (by decide)]
    cases "title=\"".toList.isPrefixOf? (s.dropWhile Text.isBlankChar) with
    | none => rfl
    | some quoted =>
      simp only [Option.map_some, Text.takeWhile_crlf (p := (· ≠ '"')) hquote,
        Text.dropWhile_crlf (p := (· ≠ '"')) hquote]
      cases hd : quoted.dropWhile (· ≠ '"') with
      | nil => rfl
      | cons quote rest =>
        -- the title ends at a quote, which is no line end
        have hq : quote = '"' := by
          have hstop := List.head?_dropWhile_not (· ≠ '"') quoted
          rw [hd] at hstop
          simpa using hstop
        subst hq
        simp [Prod.map, Text.crlf_eq_self]

theorem scanHintTag?_crlf (s : Text) :
    scanHintTag? s.crlf = (scanHintTag? s).map Match.crlf := by
  unfold scanHintTag?
  rw [Text.isPrefixOf?_crlf (p := "<hint".toList) (by decide) (by decide)]
  cases "<hint".toList.isPrefixOf? s with
  | none => rfl
  | some s =>
    have hattribute : (titleAttribute? (Text.crlf s)).getD ([], [], Text.crlf s) =
        Prod.map Text.crlf (Prod.map Text.crlf Text.crlf)
          ((titleAttribute? s).getD ([], [], s)) := by
      rw [titleAttribute?_crlf]
      cases titleAttribute? s <;> rfl
    simp only [Option.map_some, hattribute, Prod.map, Text.takeWhile_crlf isBlankChar_cr,
      Text.dropWhile_crlf isBlankChar_cr,
      Text.isPrefixOf?_crlf (p := ['>']) (by decide) (by decide), Option.map_map]
    simp [Function.comp_def, Match.crlf, Text.crlf_eq_self]

/-! ### Fences -/

/-- A line end at the front is one with the longer form, too. -/
theorem lineEnd_crlf {s : Text} (hs : '\r' ∉ s) :
    lineEnd s.crlf = (lineEnd s).crlf ∧
      s.crlf.drop (lineEnd s.crlf).length = Text.crlf (s.drop (lineEnd s).length) := by
  cases s with
  | nil => exact ⟨rfl, rfl⟩
  | cons c s =>
    by_cases hc : c = '\n'
    · subst hc
      exact ⟨rfl, rfl⟩
    · have hcr : c ≠ '\r' := fun h => hs (h ▸ List.mem_cons_self)
      have hnone : ∀ t : Text, lineEnd (c :: t) = [] := by
        intro t
        unfold lineEnd
        split
        · next h => exact absurd (List.cons.inj h).1 hc
        · next h => exact absurd (List.cons.inj h).1 hcr
        · rfl
      rw [Text.crlf_cons hc, hnone, hnone]
      exact ⟨rfl, (Text.crlf_cons hc s).symm⟩

/-- A line end that may stand in front of a fence. -/
theorem optional_crlf {s : Text} (hs : '\r' ∉ s) :
    optional '\r' s = [] ∧
    optional '\r' s.crlf ++ optional '\n' (s.crlf.drop (optional '\r' s.crlf).length) =
      (optional '\n' s).crlf ∧
    (s.crlf.drop (optional '\r' s.crlf).length).drop
        (optional '\n' (s.crlf.drop (optional '\r' s.crlf).length)).length =
      Text.crlf (s.drop (optional '\n' s).length) := by
  cases s with
  | nil => exact ⟨rfl, rfl, rfl⟩
  | cons c s =>
    have hcr : c ≠ '\r' := fun h => hs (h ▸ List.mem_cons_self)
    by_cases hc : c = '\n'
    · subst hc
      exact ⟨rfl, rfl, rfl⟩
    · have hnone : ∀ (x : Char) (t : Text), c ≠ x → optional x (c :: t) = [] :=
        fun x t hx => if_neg hx
      rw [Text.crlf_cons hc, hnone _ _ hcr, hnone _ _ hcr, List.length_nil, List.drop_zero,
        hnone _ _ hc, hnone _ _ hc]
      exact ⟨rfl, rfl, (Text.crlf_cons hc s).symm⟩

theorem not_mem_of_isPrefixOf? {p s rest : Text} {c : Char} (h : p.isPrefixOf? s = some rest)
    (hs : c ∉ s) : c ∉ rest := by
  intro hc
  rw [eq_append_of_isPrefixOf? h] at hs
  exact hs (List.mem_append_right _ hc)

theorem scanFenceOpening?_crlf {s : Text} (hs : '\r' ∉ s) :
    scanFenceOpening? s.crlf = (scanFenceOpening? s).map Match.crlf := by
  obtain ⟨hcr, hfront, hrest⟩ := optional_crlf hs
  unfold scanFenceOpening?
  simp only [hcr, List.length_nil, List.drop_zero, List.nil_append, hrest]
  rw [Text.isPrefixOf?_crlf (p := "```coq".toList) (by decide) (by decide)]
  cases hword : "```coq".toList.isPrefixOf? (s.drop (optional '\n' s).length) with
  | none => rfl
  | some t =>
    have hgap : isGapChar '\r' = isGapChar '\n' := rfl
    -- what follows the word is a part of the text
    have ht : '\r' ∉ t.dropWhile isGapChar := fun h =>
      not_mem_of_isPrefixOf? hword (fun h => hs (List.mem_of_mem_drop h))
        ((List.dropWhile_sublist _).mem h)
    obtain ⟨hstop, hbehind⟩ := lineEnd_crlf ht
    simp only [Option.map_some, Text.takeWhile_crlf hgap, Text.dropWhile_crlf hgap, hbehind, hfront]
    rw [hstop]
    simp only [Text.crlf_eq_nil_iff]
    split
    · rfl
    · simp [Match.crlf, Text.crlf_eq_self]

theorem scanFenceClosing?_crlf {s : Text} (hs : '\r' ∉ s) :
    scanFenceClosing? s.crlf = (scanFenceClosing? s).map Match.crlf := by
  obtain ⟨hfront, hrest⟩ := lineEnd_crlf hs
  unfold scanFenceClosing?
  simp only [hrest]
  rw [hfront]
  simp only [Text.crlf_eq_nil_iff,
    Text.isPrefixOf?_crlf (p := "```".toList) (by decide) (by decide), Option.map_map]
  split
  · rfl
  · cases hword : "```".toList.isPrefixOf? (s.drop (lineEnd s).length) with
    | none => rfl
    | some t =>
      have ht : '\r' ∉ t := not_mem_of_isPrefixOf? hword fun h => hs (List.mem_of_mem_drop h)
      obtain ⟨hback, hbehind⟩ := lineEnd_crlf ht
      simp only [Option.map_some, Function.comp_apply, hbehind, Match.crlf, Text.crlf_append,
        Text.crlf_nil]
      rw [hback, Text.crlf_eq_self (s := "```".toList) (by decide)]

/-- A marker that takes a carriage return in front of the line feed it begins with. -/
theorem matchAt?_lf_of_scan? {m : Marker} {s : Text}
    (h : m.scan? ('\r' :: '\n' :: s) =
      (m.scan? ('\n' :: s)).map fun found => { found with lexeme := '\r' :: found.lexeme })
    (hnone : m.matchAt? ('\r' :: '\n' :: s) = none) : m.matchAt? ('\n' :: s) = none := by
  unfold matchAt? at hnone ⊢
  rw [h] at hnone
  cases hscan : m.scan? ('\n' :: s) with
  | none => rfl
  | some found =>
    rw [hscan, Option.map_some, Option.filter_some_pos (by simp)] at hnone
    exact nomatch hnone

theorem seesThrough_fenceOpening : fenceOpening.SeesThrough where
  matchAt?_crlf hs := matchAt?_crlf_of_scan? (scanFenceOpening?_crlf hs)
  matchAt?_lf := by
    intro s
    refine matchAt?_lf_of_scan? ?_
    have hcr : optional '\r' ('\r' :: '\n' :: s) = ['\r'] := rfl
    have hno : optional '\r' ('\n' :: s) = [] := rfl
    have hlf : optional '\n' ('\n' :: s) = ['\n'] := rfl
    show scanFenceOpening? ('\r' :: '\n' :: s) = (scanFenceOpening? ('\n' :: s)).map _
    unfold scanFenceOpening?
    simp only [hcr, hno, hlf, List.length_cons, List.length_nil, List.drop_succ_cons,
      List.drop_zero]
    cases "```coq".toList.isPrefixOf? s with
    | none => rfl
    | some s =>
      simp only
      split <;> rfl

theorem seesThrough_fenceClosing : fenceClosing.SeesThrough where
  matchAt?_crlf hs := matchAt?_crlf_of_scan? (scanFenceClosing?_crlf hs)
  matchAt?_lf := by
    intro s
    refine matchAt?_lf_of_scan? ?_
    have hlong : lineEnd ('\r' :: '\n' :: s) = ['\r', '\n'] := rfl
    have hshort : lineEnd ('\n' :: s) = ['\n'] := rfl
    show scanFenceClosing? ('\r' :: '\n' :: s) = (scanFenceClosing? ('\n' :: s)).map _
    unfold scanFenceClosing?
    simp only [hlong, hshort, List.cons_ne_nil, if_false, List.length_cons, List.length_nil,
      List.drop_succ_cons, List.drop_zero, Option.map_map]
    rfl

theorem seesThrough_of_inLine {m : Marker} (h : m.InLine) : m.SeesThrough := by
  cases m with
  | literal text =>
    obtain ⟨hne, hcr, hlf⟩ := h
    exact seesThrough_of_front hne hlf (scan?_literal_crlf hcr hlf)
  | details opening closing => exact seesThrough_of_front h.1 h.2.1.2 (scanDetails?_crlf h)
  | hintTag => exact seesThrough_of_front (by decide) (by decide) scanHintTag?_crlf
  | fenceOpening => exact seesThrough_fenceOpening
  | fenceClosing => exact seesThrough_fenceClosing

end Marker

/-! ### Scans -/

theorem Text.map_inFront_crlf {α β : Type} (f : α → β) (s : Text) (found : Option (Text × α)) :
    (found.map (Text.inFront s)).map (Prod.map Text.crlf f) =
      (found.map (Prod.map Text.crlf f)).map (Text.inFront s.crlf) := by
  cases found with
  | none => rfl
  | some found => exact congrArg (fun before => some (before, f found.2)) (Text.crlf_append _ _)

/-- A scan that goes past a character goes past what stands for it with the longer line ends. -/
theorem Text.scan_crlf_cons {α : Type} {scan : Text → Option (Text × α)} {P : Text → Prop}
    (hskip : ∀ {c s}, P (c :: s) → scan (c :: s) = (scan s).map (Text.inFront [c]))
    (hlf : ∀ {s}, P ('\r' :: '\n' :: s) → P ('\n' :: s)) {c : Char} {s : Text}
    (h : P (Text.crlf (c :: s))) :
    scan (Text.crlf (c :: s)) = (scan s.crlf).map (Text.inFront (Text.crlf [c])) := by
  by_cases hc : c = '\n'
  · subst hc
    rw [Text.crlf_lf] at h ⊢
    rw [hskip h, hskip (hlf h), Text.map_inFront_map]
    rfl
  · rw [Text.crlf_cons hc] at h ⊢
    rw [hskip h, Text.crlf_cons hc]
    rfl

/-- A marker is found where it was found, behind the same text. -/
theorem Marker.SeesThrough.find?_crlf {m : Marker} (hm : m.SeesThrough) {s : Text}
    (hs : '\r' ∉ s) : m.find? s.crlf = (m.find? s).map (Prod.map Text.crlf Match.crlf) := by
  induction s with
  | nil => rfl
  | cons c s ih =>
    have hrest : '\r' ∉ s := fun h => hs (List.mem_cons_of_mem _ h)
    have hat := hm.matchAt?_crlf hs
    cases hmatch : m.matchAt? (c :: s) with
    | some found =>
      rw [hmatch] at hat
      rw [find?_of_matchAt? hat, find?_of_matchAt? hmatch]
      rfl
    | none =>
      rw [hmatch] at hat
      rw [find?_cons_of_none hmatch, Text.map_inFront_crlf, ← ih hrest]
      -- at a line end this goes past two characters
      exact Text.scan_crlf_cons (P := fun s => m.matchAt? s = none) find?_cons_of_none
        hm.matchAt?_lf hat

theorem Marker.not_mem_rest {m : Marker} {s : Text} {found : Match}
    (h : m.matchAt? s = some found) {c : Char} (hs : c ∉ s) : c ∉ found.rest := by
  intro hc
  rw [eq_append_of_matchAt? h] at hs
  exact hs (List.mem_append_right _ hc)

namespace Rule

variable {r : Rule}

/-- A rule for whose markers the form of line ends makes no difference. -/
def SeesThrough (r : Rule) : Prop := r.opening.SeesThrough ∧ r.closing.SeesThrough

/-- The closing marker that balances is the same. -/
theorem SeesThrough.balance?_crlf (hr : r.SeesThrough) {depth : Nat} {s : Text} (hs : '\r' ∉ s) :
    r.balance? depth s.crlf = (r.balance? depth s).map (Prod.map Text.crlf Match.crlf) := by
  -- the cases of the scan: what it meets at the front of the text, it meets there in either form
  fun_induction Rule.balance? r depth s with
  | case1 depth => rw [Text.crlf_nil, balance?, Option.map_none]
  | case2 c tail stop hc =>
    have hstop := hr.2.matchAt?_crlf hs
    rw [hc] at hstop
    rw [balance?_zero_of_matchAt? hstop]
    rfl
  | case3 c tail stop hc depth ih =>
    have hstop := hr.2.matchAt?_crlf hs
    rw [hc] at hstop
    have hrest := ih (Marker.not_mem_rest hc hs)
    rw [balance?_succ_of_matchAt? hstop]
    show (r.balance? depth stop.rest.crlf).map (Text.inFront stop.lexeme.crlf) =
      ((r.balance? depth stop.rest).map (Text.inFront stop.lexeme)).map _
    rw [hrest, Text.map_inFront_crlf]
  | case4 depth c tail hc start ho ih =>
    have hstop := hr.2.matchAt?_crlf hs
    have hstart := hr.1.matchAt?_crlf hs
    rw [hc] at hstop
    rw [ho] at hstart
    have hrest := ih (Marker.not_mem_rest ho hs)
    rw [balance?_of_opening hstop hstart]
    show (r.balance? (depth + 1) start.rest.crlf).map (Text.inFront start.lexeme.crlf) =
      ((r.balance? (depth + 1) start.rest).map (Text.inFront start.lexeme)).map _
    rw [hrest, Text.map_inFront_crlf]
  | case5 depth c tail hc ho ih =>
    -- past a line end the scan goes in two steps, and no marker begins at the second
    have hstop := hr.2.matchAt?_crlf hs
    have hstart := hr.1.matchAt?_crlf hs
    rw [hc] at hstop
    rw [ho] at hstart
    have hrest := ih fun h => hs (List.mem_cons_of_mem _ h)
    show _ = ((r.balance? depth tail).map (Text.inFront [c])).map _
    rw [Text.map_inFront_crlf, ← hrest]
    exact Text.scan_crlf_cons
      (P := fun s => r.opening.matchAt? s = none ∧ r.closing.matchAt? s = none)
      (fun h => balance?_cons_of_none h.1 h.2 depth)
      (fun h => ⟨hr.1.matchAt?_lf h.1, hr.2.matchAt?_lf h.2⟩) ⟨hstart, hstop⟩

theorem SeesThrough.close?_crlf (hr : r.SeesThrough) {s : Text} (hs : '\r' ∉ s) :
    r.close? s.crlf = (r.close? s).map (Prod.map Text.crlf Match.crlf) := by
  unfold close?
  cases r.kind with
  | leaf kind => exact hr.2.find?_crlf hs
  | collapsible | input => exact hr.balance?_crlf hs

end Rule

/-! ### Segments -/

/-- A segment of the text with the longer line ends. -/
def Segment.crlf : Segment → Segment
  | plain text => .plain text.crlf
  | region kind title opening inner closing =>
    .region kind title.crlf opening.crlf inner.crlf (closing.map Text.crlf)

theorem Segment.text_crlf (segment : Segment) : segment.crlf.text = segment.text.crlf := by
  cases segment with
  | plain text => rfl
  | region kind title opening inner closing =>
    cases closing <;> simp [Segment.crlf, Segment.text]

theorem Segment.plain?_crlf (text : Text) :
    Segment.plain? text.crlf = (Segment.plain? text).map Segment.crlf := by
  unfold Segment.plain?
  by_cases htext : text = []
  · subst htext
    rfl
  · rw [if_neg htext, if_neg (mt Text.crlf_eq_nil_iff.1 htext)]
    rfl

theorem Rule.SeesThrough.region_crlf {r : Rule} (hr : r.SeesThrough) {start : Match}
    (hstart : '\r' ∉ start.rest) :
    r.region start.crlf = ((r.region start).1.crlf, (r.region start).2.crlf) := by
  have hclose := hr.close?_crlf hstart
  unfold Rule.region
  cases hfound : r.close? start.rest with
  | none =>
    have hnone : r.close? start.crlf.rest = none := hclose.trans (congrArg _ hfound)
    rw [hnone]
    rfl
  | some found =>
    have hsome : r.close? start.crlf.rest = some (found.1.crlf, found.2.crlf) :=
      hclose.trans (congrArg _ hfound)
    rw [hsome]
    rfl

namespace RegionGrammar

variable {g : RegionGrammar}

/-- A grammar for whose markers the form of line ends makes no difference. -/
def SeesThrough (g : RegionGrammar) : Prop := ∀ r ∈ g.rules, r.SeesThrough

/-- The same rule opens a region. -/
theorem SeesThrough.openingAt?_crlf (hg : g.SeesThrough) {s : Text} (hs : '\r' ∉ s) :
    g.openingAt? s.crlf = (g.openingAt? s).map (Prod.map id Match.crlf) := by
  obtain ⟨between, rules⟩ := g
  unfold openingAt?
  induction rules with
  | nil => rfl
  | cons r rules ih =>
    obtain ⟨hr, hrules⟩ := List.forall_mem_cons.1 hg
    rw [List.findSome?_cons, List.findSome?_cons, hr.1.matchAt?_crlf hs]
    cases r.opening.matchAt? s with
    | some start => rfl
    | none => exact ih hrules

theorem SeesThrough.openingAt?_lf (hg : g.SeesThrough) {s : Text}
    (h : g.openingAt? ('\r' :: '\n' :: s) = none) : g.openingAt? ('\n' :: s) = none := by
  refine List.findSome?_eq_none_iff.2 ?_
  intro r hr
  have hnone := List.findSome?_eq_none_iff.1 h r hr
  rw [(hg r hr).1.matchAt?_lf (Option.map_eq_none_iff.1 hnone)]
  rfl

/-- The first region begins where it began. -/
theorem SeesThrough.nextOpening?_crlf (hg : g.SeesThrough) {s : Text} (hs : '\r' ∉ s) :
    g.nextOpening? s.crlf =
      (g.nextOpening? s).map (Prod.map Text.crlf (Prod.map id Match.crlf)) := by
  induction s with
  | nil => rfl
  | cons c s ih =>
    have hrest : '\r' ∉ s := fun h => hs (List.mem_cons_of_mem _ h)
    have hat := hg.openingAt?_crlf hs
    cases hopened : g.openingAt? (c :: s) with
    | some opened =>
      rw [hopened] at hat
      rw [nextOpening?_of_openingAt? hat, nextOpening?_of_openingAt? hopened]
      rfl
    | none =>
      rw [hopened] at hat
      rw [nextOpening?_cons_of_none hopened, Text.map_inFront_crlf, ← ih hrest]
      exact Text.scan_crlf_cons (P := fun s => g.openingAt? s = none)
        nextOpening?_cons_of_none hg.openingAt?_lf hat

/-- The text is cut where it was cut. -/
theorem SeesThrough.segments_crlf (hg : g.SeesThrough) {s : Text} (hs : '\r' ∉ s) :
    g.segments s.crlf = (g.segments s).map Segment.crlf := by
  fun_induction segments g s with
  | case1 s hnone =>
    have hnext := hg.nextOpening?_crlf hs
    rw [hnone] at hnext
    rw [segments_of_nextOpening?_eq_none hnext, Segment.plain?_crlf]
  | case2 s before r start hsome ih =>
    have hnext := hg.nextOpening?_crlf hs
    rw [hsome] at hnext
    obtain ⟨hsplit, -⟩ := eq_append_of_nextOpening? hsome
    rw [hsplit, List.append_assoc] at hs
    have hregion : '\r' ∉ start.lexeme ++ start.rest := fun h => hs (List.mem_append_right _ h)
    have hstart : '\r' ∉ start.rest := fun h => hregion (List.mem_append_right _ h)
    have hbehind : '\r' ∉ (r.region start).2 := by
      rw [← r.text_region_append start] at hregion
      exact fun h => hregion (List.mem_append_right _ h)
    have hcrlf := (hg r (mem_rules_of_nextOpening? hsome)).region_crlf hstart
    rw [segments_of_nextOpening? hnext]
    show Segment.plain? before.crlf ++
      (r.region start.crlf).1 :: g.segments (r.region start.crlf).2 = _
    rw [hcrlf, ih hbehind, Segment.plain?_crlf, List.map_append, List.map_cons]

/-! ### Shapes -/

theorem not_mem_inner {s : Text} {c : Char} (hs : c ∉ s) {kind : RegionKind}
    {title opening inner : Text} {closing : Option Text}
    (h : .region kind title opening inner closing ∈ g.segments s) : c ∉ inner := by
  intro hc
  rw [← g.flatMap_segments s] at hs
  refine hs (List.mem_flatMap.2 ⟨_, h, ?_⟩)
  exact List.mem_append_left _ (List.mem_append_right _ hc)

theorem leafShape_crlf (g : RegionGrammar) (segment : Segment) :
    g.leafShape segment.crlf = (g.leafShape segment).mapText Text.crlf := by
  cases segment with
  | plain text => rfl
  | region kind title opening inner closing =>
    cases kind with
    | leaf kind => rfl
    | collapsible | input =>
      exact congrArg (LeafShape.mk .text)
        (Segment.text_crlf (.region _ title opening inner closing))

theorem SeesThrough.leaves_crlf (hg : g.SeesThrough) {inner : Text} (h : '\r' ∉ inner) :
    g.leaves inner.crlf = (g.leaves inner).map (LeafShape.mapText Text.crlf) := by
  unfold leaves
  rw [hg.segments_crlf h, List.map_map, List.map_map]
  exact List.map_congr_left fun segment _ => leafShape_crlf g segment

theorem SeesThrough.shape_crlf (hg : g.SeesThrough) {s : Text} (hs : '\r' ∉ s) {segment : Segment}
    (h : segment ∈ g.segments s) :
    g.shape segment.crlf = (g.shape segment).mapText Text.crlf := by
  cases segment with
  | plain text => rfl
  | region kind title opening inner closing =>
    have hleaves := hg.leaves_crlf (not_mem_inner hs h)
    cases kind with
    | leaf kind => rfl
    | collapsible => exact congrArg (Shape.container (.collapsible title.crlf)) hleaves
    | input => exact congrArg (Shape.container (.input .unattempted)) hleaves

/-- The same is read, in the longer line ends. -/
theorem SeesThrough.read_crlf (hg : g.SeesThrough) {s : Text} (hs : '\r' ∉ s) :
    g.read s.crlf = (g.read s).map (Shape.mapText Text.crlf) := by
  unfold read
  rw [hg.segments_crlf hs, List.map_map, List.map_map]
  exact List.map_congr_left fun segment h => hg.shape_crlf hs h

/-- A grammar of markers whose fixed texts stay within a line. -/
theorem seesThrough_of_inLine (h : ∀ r ∈ g.rules, r.opening.InLine ∧ r.closing.InLine) :
    g.SeesThrough :=
  fun r hr => ⟨Marker.seesThrough_of_inLine (h r hr).1, Marker.seesThrough_of_inLine (h r hr).2⟩

theorem seesThrough_coq : coq.SeesThrough := seesThrough_of_inLine (by decide)

theorem seesThrough_coqmd : coqmd.SeesThrough := seesThrough_of_inLine (by decide)

theorem seesThrough_leanPure : leanPure.SeesThrough := seesThrough_of_inLine (by decide)

end RegionGrammar

end Worksheet
