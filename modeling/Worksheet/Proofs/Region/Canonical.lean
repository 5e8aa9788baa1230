import Mathlib.Data.List.Basic
import Worksheet.Proofs.Region.RoundTrip

/-! # The canonical grammars are undone

  Each of the three region grammars takes the delimiters of its output grammar for its own markers.
  The fixed ones are found by looking at them, whatever follows. A title is found because the
  marker that ends it cannot begin in it.
-/

namespace Worksheet

/-! ### Titles in opening markers -/

namespace Marker

/-- A fixed text is found where it stands. -/
theorem matchAt?_literal {text : Text} (htext : text ≠ []) (s : Text) :
    (literal text).matchAt? (text ++ s) = some ⟨text, [], s⟩ := by
  have hrest : text.isPrefixOf? (text ++ s) = some s :=
    List.isPrefixOf?_eq_some_iff_append_eq.2 rfl
  show ((text.isPrefixOf? (text ++ s)).map _).filter _ = _
  rw [hrest]
  exact Option.filter_some_pos (decide_eq_true htext)

theorem isPrefixOf?_of_matchAt?_eq_none {text s : Text} (htext : text ≠ [])
    (h : (literal text).matchAt? s = none) : text.isPrefixOf? s = none := by
  cases hrest : text.isPrefixOf? s with
  | none => rfl
  | some rest =>
    rw [eq_append_of_isPrefixOf? hrest, matchAt?_literal htext] at h
    exact nomatch h

theorem upTo?_append {stop title : Text} (hstop : stop ≠ []) (s : Text)
    (hline : ∀ c ∈ title, ¬(c = '\r' ∨ c = '\n'))
    (hclear : (literal stop).Clear title (stop ++ s)) :
    upTo? stop (title ++ (stop ++ s)) = some (title, s) := by
  induction title with
  | nil =>
    obtain ⟨c, stop, rfl⟩ := List.exists_cons_of_ne_nil hstop
    have hprefix : (c :: stop).isPrefixOf? (c :: (stop ++ s)) = some s :=
      List.isPrefixOf?_eq_some_iff_append_eq.2 rfl
    show upTo? (c :: stop) (c :: (stop ++ s)) = _
    rw [upTo?, hprefix]
  | cons c title ih =>
    -- the stop does not begin here, and the title goes on within the line
    obtain ⟨hc, hrest⟩ := List.forall_mem_cons.1 hline
    show upTo? stop (c :: (title ++ (stop ++ s))) = _
    rw [upTo?, isPrefixOf?_of_matchAt?_eq_none hstop hclear.1]
    simp only [if_neg hc, ih hrest hclear.2, Option.map_some]

/-- A section is opened with a title in which its closing text does not begin. -/
theorem matchAt?_details_titled {opening closing title : Text} (hclosing : closing ≠ []) (s : Text)
    (hline : ∀ c ∈ title, ¬(c = '\r' ∨ c = '\n'))
    (hclear : (literal closing).Clear title (closing ++ s)) :
    (details opening closing).matchAt? (opening ++ (" : ".toList ++ (title ++ (closing ++ s)))) =
      some ⟨opening ++ " : ".toList ++ title ++ closing, title, s⟩ := by
  have hopening : ∀ p t : Text, p.isPrefixOf? (p ++ t) = some t :=
    fun p t => List.isPrefixOf?_eq_some_iff_append_eq.2 rfl
  have hscan : scanDetails? opening closing
      (opening ++ (" : ".toList ++ (title ++ (closing ++ s)))) =
        some ⟨opening ++ " : ".toList ++ title ++ closing, title, s⟩ := by
    unfold scanDetails?
    rw [hopening]
    simp only [hopening, upTo?_append hclosing s hline hclear, Option.map_some]
  show (scanDetails? opening closing _).filter _ = _
  rw [hscan]
  refine Option.filter_some_pos (decide_eq_true ?_)
  intro hnil
  exact hclosing (List.append_eq_nil_iff.1 hnil).2

/-- A hint is opened with a title without quotes. -/
theorem matchAt?_hintTag_titled {title : Text} (s : Text) (hquote : ∀ c ∈ title, c ≠ '"') :
    hintTag.matchAt? ("<hint title=\"".toList ++ (title ++ ("\">".toList ++ s))) =
      some ⟨"<hint title=\"".toList ++ (title ++ "\">".toList), title, s⟩ := by
  have hquoted : ∀ c ∈ title, decide (c ≠ '"') = true := fun c hc => decide_eq_true (hquote c hc)
  -- the title ends at the first quote, which is the one behind it
  have htake : (title ++ '"' :: '>' :: s).takeWhile (· ≠ '"') = title := by
    rw [List.takeWhile_append_of_pos hquoted]
    exact List.append_nil title
  have hdrop : (title ++ '"' :: '>' :: s).dropWhile (· ≠ '"') = '"' :: '>' :: s := by
    rw [List.dropWhile_append_of_pos hquoted]
    rfl
  have hattribute : titleAttribute? (" title=\"".toList ++ (title ++ '"' :: '>' :: s)) =
      some (" title=\"".toList ++ title ++ ['"'], title, '>' :: s) := by
    have hblank : (" title=\"".toList ++ (title ++ '"' :: '>' :: s)).takeWhile Text.isBlankChar =
        [' '] := rfl
    have hname : "title=\"".toList.isPrefixOf?
        ((" title=\"".toList ++ (title ++ '"' :: '>' :: s)).dropWhile Text.isBlankChar) =
          some (title ++ '"' :: '>' :: s) := rfl
    unfold titleAttribute?
    simp only [hblank, hname, htake, hdrop]
    rfl
  have hscan : scanHintTag? ("<hint".toList ++ (" title=\"".toList ++ (title ++ '"' :: '>' :: s))) =
      some ⟨"<hint".toList ++ (" title=\"".toList ++ title ++ ['"']) ++ [] ++ ['>'], title, s⟩ := by
    unfold scanHintTag?
    rw [List.isPrefixOf?_eq_some_iff_append_eq.2 rfl]
    simp only [hattribute, Option.getD_some]
    rfl
  have hlexeme : "<hint".toList ++ (" title=\"".toList ++ title ++ ['"']) ++ [] ++ ['>'] =
      "<hint title=\"".toList ++ (title ++ "\">".toList) := by simp
  rw [hlexeme] at hscan
  have hmatch : hintTag.scan? ("<hint title=\"".toList ++ (title ++ ("\">".toList ++ s))) = _ :=
    hscan
  unfold matchAt?
  rw [hmatch]
  rfl

end Marker

namespace RegionGrammar

theorem openingAt?_of_matchAt? {g : RegionGrammar} (earlier : List Rule) {later : List Rule}
    {r : Rule} {s : Text} {start : Match} (hrules : g.rules = earlier ++ r :: later)
    (hearlier : ∀ r' ∈ earlier, r'.opening.matchAt? s = none)
    (hr : r.opening.matchAt? s = some start) : g.openingAt? s = some (r, start) := by
  unfold openingAt?
  rw [hrules]
  refine List.findSome?_eq_some_iff.2 ⟨earlier, r, later, rfl, ?_, ?_⟩
  · rw [hr]
    rfl
  · intro r' hr'
    rw [hearlier r' hr']
    rfl

/-- A section is opened with a title within its line if no earlier rule opens a region there. -/
theorem openingAt?_details_titled {g : RegionGrammar} {earlier later : List Rule}
    {opening closing stop title : Text} {herald a : Char} {text : Text}
    (hrules : g.rules = earlier ++ ⟨.collapsible, .details opening closing, .literal stop⟩ :: later)
    (hearlier : ∀ r ∈ earlier, ∀ s, r.opening.matchAt? (opening ++ s) = none)
    (hclosing : closing = a :: herald :: text) (ha : a ≠ herald)
    (hline : ∀ c ∈ title, ¬(c = '\r' ∨ c = '\n')) (hherald : herald ∉ title) (s : Text) :
    g.openingAt? (opening ++ " : ".toList ++ title ++ closing ++ s) =
      some (⟨.collapsible, .details opening closing, .literal stop⟩,
        ⟨opening ++ " : ".toList ++ title ++ closing, title, s⟩) := by
  have hs : opening ++ " : ".toList ++ title ++ closing ++ s =
      opening ++ (" : ".toList ++ (title ++ (closing ++ s))) := by
    simp only [List.append_assoc]
  -- the closing text needs the herald, and neither the title nor the seam has one
  have hclear : (Marker.literal closing).Clear title (closing ++ s) := by
    subst hclosing
    have hheralded : (Marker.literal (a :: herald :: text)).Heralded (· ≠ herald) herald :=
      Marker.heralded_of_showsFront (by simp [Marker.showsFront, Marker.front])
    refine hheralded.clear (decide_eq_false fun h => h rfl) ?_ ?_
    · intro c hc
      exact decide_eq_true fun h => hherald (h ▸ hc)
    · exact fun h => ha (Option.some.inj h)
  refine openingAt?_of_matchAt? earlier hrules ?_ ?_
  · intro r hr
    rw [hs]
    exact hearlier r hr _
  · rw [hs]
    have hne : closing ≠ [] := by
      rw [hclosing]
      exact List.cons_ne_nil _ _
    exact Marker.matchAt?_details_titled hne s hline hclear

/-- A text that begins with a character that is not plain does not begin with what is plain. -/
theorem not_front_of_plain {isPlain : Char → Bool} {c : Char} (hc : isPlain c = false)
    {front text inner rest : Text} (hinner : ∀ x ∈ inner, isPlain x = true)
    (hrest : rest.head? ≠ some c) : ¬front ++ c :: text <+: front ++ (inner ++ rest) := by
  intro h
  obtain ⟨t, ht⟩ := (List.prefix_append_right_inj _).1 h
  cases inner with
  | nil =>
    have hsplit : c :: (text ++ t) = rest := ht
    rw [← hsplit] at hrest
    exact hrest rfl
  | cons x inner =>
    obtain ⟨rfl, -⟩ := List.cons.inj ht
    rw [hinner c List.mem_cons_self] at hc
    exact nomatch hc

/-! ### Doc comments and sections -/

/-- The frame of prose in doc comments, where the same comments hold mathematics if they go on with
    a dollar sign. -/
theorem frames_prose {g : RegionGrammar} {later : List Rule} (opening closing text : Text)
    {stop : Text} {isPlain : Char → Bool} {herald : Char}
    (hrules : g.rules = ⟨.leaf .math, .literal (opening ++ '$' :: text), .literal stop⟩ ::
      ⟨.leaf .text, .literal opening, .literal closing⟩ :: later)
    (hopening : opening ≠ []) (hclosing : closing ≠ []) (hdollar : isPlain '$' = false)
    (hopening? : opening.head? ≠ some herald) (hclosing? : closing.head? ≠ some herald)
    (hclosing_dollar : closing.head? ≠ some '$') :
    Rule.Frames g ⟨.leaf .text, .literal opening, .literal closing⟩ herald ⟨opening, closing⟩ []
      fun inner => ∀ c ∈ inner, isPlain c = true where
  mem := by
    rw [hrules]
    exact .tail _ (.head _)
  opens := by
    intro inner after hinner
    refine openingAt?_of_matchAt? [_] hrules ?_ (Marker.matchAt?_literal hopening _)
    intro r hr
    obtain rfl := List.mem_singleton.1 hr
    -- the inside would have to begin with a dollar sign
    refine Marker.matchAt?_eq_none_of_front ?_
    refine not_front_of_plain hdollar hinner ?_
    obtain ⟨c, closing, rfl⟩ := List.exists_cons_of_ne_nil hclosing
    exact hclosing_dollar
  closes := Marker.matchAt?_literal hclosing
  head?_opening := hopening?
  head?_closing := hclosing?

/-- The frame of sections whose opening marker has a title unless that is empty. -/
theorem frames_details {g : RegionGrammar} {o : OutputGrammar} (earlier : List Rule)
    {later : List Rule} (opening closing stop : Text) {title text : Text} {herald c : Char}
    (hrules : g.rules = earlier ++ ⟨.collapsible, .details opening closing, .literal stop⟩ :: later)
    (hearlier : ∀ r ∈ earlier, ∀ s, r.opening.matchAt? (opening ++ s) = none)
    (huntitled : title = [] → o.ofTitle title = ⟨opening ++ closing, stop⟩)
    (htitled : title ≠ [] →
      o.ofTitle title = ⟨opening ++ " : ".toList ++ title ++ closing, stop⟩)
    (hempty : ∀ s, (Marker.details opening closing).matchAt? (opening ++ closing ++ s) =
      some ⟨opening ++ closing, [], s⟩)
    (hopening : opening ≠ []) (hclosing : closing = c :: herald :: text) (hstop : stop ≠ [])
    (hopening? : opening.head? ≠ some herald) (hstop? : stop.head? ≠ some herald)
    (hc : c ≠ herald) (hline : ∀ c ∈ title, ¬(c = '\r' ∨ c = '\n')) (hherald : herald ∉ title) :
    Rule.Frames g ⟨.collapsible, .details opening closing, .literal stop⟩ herald (o.ofTitle title)
      title fun _ => True := by
  have hmem : ⟨.collapsible, .details opening closing, .literal stop⟩ ∈ g.rules := by
    rw [hrules]
    exact List.mem_append_right _ (.head _)
  have hhead : ∀ s : Text, (opening ++ s).head? ≠ some herald := by
    intro s
    obtain ⟨a, opening, rfl⟩ := List.exists_cons_of_ne_nil hopening
    exact hopening?
  -- no title, no separator: the marker is then the bare one
  by_cases hnil : title = []
  · rw [huntitled hnil, hnil]
    refine ⟨hmem, ?_, Marker.matchAt?_literal hstop, hhead _, hstop?⟩
    intro inner after _
    refine openingAt?_of_matchAt? earlier hrules ?_ (hempty _)
    intro r hr
    rw [List.append_assoc]
    exact hearlier r hr _
  · rw [htitled hnil]
    refine ⟨hmem, ?_, Marker.matchAt?_literal hstop, ?_, hstop?⟩
    · intro inner after _
      exact openingAt?_details_titled hrules hearlier hclosing hc hline hherald _
    · simp only [List.append_assoc]
      exact hhead _

/-! ### Coq -/

/-- Characters that mean nothing in Coq. -/
def isPlainCoq (c : Char) : Bool := c ≠ '*' ∧ c ≠ '$'

/-- The frame of containers whose title, if any, stays within the comment and its line. -/
theorem frames_coq {heading : Heading} (hline : ∀ c ∈ heading.title, ¬(c = '\r' ∨ c = '\n'))
    (hherald : '*' ∉ heading.title) : ∃ r : Rule, r.kind = heading.regionKind ∧
      r.Frames coq '*' (OutputGrammar.coq.ofHeading heading) heading.title fun _ => True := by
  cases heading with
  | collapsible title =>
    refine ⟨_, rfl, frames_details (coq.rules.take 2) "(* begin details".toList " *)".toList
      "(* end details *)".toList rfl ?_ (fun h => if_pos h) (fun h => if_neg h)
      (fun _ => rfl) (by decide) rfl (by decide) (by decide) (by decide) (by decide) hline hherald⟩
    intro r hr s
    rcases List.mem_cons.1 hr with rfl | hr
    · rfl
    · obtain rfl := List.mem_singleton.1 hr
      rfl
  | input grade =>
    exact ⟨⟨.input, .literal "(* begin input *)".toList, .literal "(* end input *)".toList⟩, rfl,
      .tail _ (.tail _ (.tail _ (.head _))), fun _ _ _ => rfl, fun _ => rfl,
      fun h => absurd (Option.some.inj h) (by decide),
      fun h => absurd (Option.some.inj h) (by decide)⟩

theorem undoes_coq : coq.Undoes .coq isPlainCoq '*' where
  bare := rfl
  herald_not_plain := rfl
  heralded := by
    intro r hr
    have hshown : ∀ r ∈ coq.rules, r.opening.showsFront isPlainCoq '*' = true ∧
        r.closing.showsFront isPlainCoq '*' = true := by decide
    exact (hshown r hr).imp Marker.heralded_of_showsFront Marker.heralded_of_showsFront
  leaf := by
    intro kind hkind
    cases kind with
    | code => exact absurd rfl hkind
    | math =>
      exact ⟨⟨.leaf .math, .literal "(** $$".toList, .literal "$$ *)".toList⟩, rfl, .head _,
        fun _ _ _ => rfl, fun _ => rfl, by decide, by decide⟩
    | text =>
      exact ⟨_, rfl, frames_prose "(** ".toList " *)".toList ['$'] rfl (by decide) (by decide) rfl
        (by decide) (by decide) (by decide)⟩
  container := fun _ hheading => frames_coq hheading.line fun h => (hheading.title_ne h).1 rfl
  apart := by decide

/-! ### Lean -/

/-- Characters that mean nothing in plain Lean. -/
def isPlainLean (c : Char) : Bool := c ≠ '-' ∧ c ≠ '$'

/-- The frame of containers whose title, if any, stays within the comment and its line. -/
theorem frames_leanPure {heading : Heading} (hline : ∀ c ∈ heading.title, ¬(c = '\r' ∨ c = '\n'))
    (hherald : '-' ∉ heading.title) : ∃ r : Rule, r.kind = heading.regionKind ∧
      r.Frames leanPure '-' (OutputGrammar.leanPure.ofHeading heading) heading.title
        fun _ => True := by
  cases heading with
  | collapsible title =>
    refine ⟨_, rfl, frames_details (leanPure.rules.take 2) "/- begin details".toList " -/".toList
      "/- end details -/".toList rfl ?_ (fun h => if_pos h) (fun h => if_neg h)
      (fun _ => rfl) (by decide) rfl (by decide) (by decide) (by decide) (by decide) hline hherald⟩
    intro r hr s
    rcases List.mem_cons.1 hr with rfl | hr
    · rfl
    · obtain rfl := List.mem_singleton.1 hr
      rfl
  | input grade =>
    exact ⟨⟨.input, .literal "/- begin input -/".toList, .literal "/- end input -/".toList⟩, rfl,
      .tail _ (.tail _ (.tail _ (.head _))), fun _ _ _ => rfl, fun _ => rfl,
      fun h => absurd (Option.some.inj h) (by decide),
      fun h => absurd (Option.some.inj h) (by decide)⟩

theorem undoes_leanPure : leanPure.Undoes .leanPure isPlainLean '-' where
  bare := rfl
  herald_not_plain := rfl
  heralded := by
    intro r hr
    have hshown : ∀ r ∈ leanPure.rules, r.opening.showsFront isPlainLean '-' = true ∧
        r.closing.showsFront isPlainLean '-' = true := by decide
    exact (hshown r hr).imp Marker.heralded_of_showsFront Marker.heralded_of_showsFront
  leaf := by
    intro kind hkind
    cases kind with
    | code => exact absurd rfl hkind
    | math =>
      exact ⟨⟨.leaf .math, .literal "/-! $$".toList, .literal "$$ -/".toList⟩, rfl, .head _,
        fun _ _ _ => rfl, fun _ => rfl, by decide, by decide⟩
    | text =>
      exact ⟨_, rfl, frames_prose "/-! ".toList " -/".toList ['$'] rfl (by decide) (by decide) rfl
        (by decide) (by decide) (by decide)⟩
  container := fun _ hheading => frames_leanPure hheading.line fun h =>
    (hheading.title_ne h).2.1 rfl
  apart := by decide

/-! ### Markdown -/

/-- Characters that mean nothing in Markdown with fences. -/
def isPlainMarkdown (c : Char) : Bool := c ≠ '`' ∧ c ≠ '$' ∧ c ≠ '<' ∧ c ≠ '\r'

theorem frames_hint {title : Text} (hquote : ∀ c ∈ title, c ≠ '"') :
    Rule.Frames coqmd ⟨.collapsible, .hintTag, .literal "</hint>".toList⟩ '`'
      (OutputGrammar.coqmd.ofTitle title) title fun _ => True := by
  by_cases hempty : title = []
  · subst hempty
    exact ⟨.tail _ (.tail _ (.head _)), fun _ _ _ => rfl, fun _ => rfl, by decide, by decide⟩
  · have hd : OutputGrammar.coqmd.ofTitle title =
        ⟨"<hint title=\"".toList ++ (title ++ "\">".toList), "</hint>".toList⟩ := if_neg hempty
    rw [hd]
    refine ⟨.tail _ (.tail _ (.head _)), ?_, fun _ => rfl,
      fun h => absurd (Option.some.inj h) (by decide),
      fun h => absurd (Option.some.inj h) (by decide)⟩
    intro inner after _
    refine openingAt?_of_matchAt? (coqmd.rules.take 2) rfl ?_ ?_
    · intro r hr
      rcases List.mem_cons.1 hr with rfl | hr
      · rfl
      · obtain rfl := List.mem_singleton.1 hr
        rfl
    · show Marker.hintTag.matchAt? ("<hint title=\"".toList ++ (title ++ "\">".toList) ++ _) = _
      rw [List.append_assoc, List.append_assoc]
      exact Marker.matchAt?_hintTag_titled _ hquote

/-- The frame of containers whose title, if any, has no quotes. -/
theorem frames_coqmd {heading : Heading} (hquote : ∀ c ∈ heading.title, c ≠ '"') :
    ∃ r : Rule, r.kind = heading.regionKind ∧
      r.Frames coqmd '`' (OutputGrammar.coqmd.ofHeading heading) heading.title fun _ => True := by
  cases heading with
  | collapsible title => exact ⟨_, rfl, frames_hint hquote⟩
  | input grade =>
    exact ⟨⟨.input, .literal "<input-area>".toList, .literal "</input-area>".toList⟩, rfl,
      .tail _ (.tail _ (.tail _ (.head _))), fun _ _ _ => rfl, fun _ => rfl,
      fun h => absurd (Option.some.inj h) (by decide),
      fun h => absurd (Option.some.inj h) (by decide)⟩

theorem undoes_coqmd : coqmd.Undoes .coqmd isPlainMarkdown '`' where
  bare := rfl
  herald_not_plain := rfl
  heralded := by
    intro r hr
    have hshown : ∀ r ∈ coqmd.rules.drop 1, r.opening.showsFront isPlainMarkdown '`' = true ∧
        r.closing.showsFront isPlainMarkdown '`' = true := by decide
    -- fences may begin with either form of line end
    rcases List.mem_cons.1 hr with rfl | hr
    · exact ⟨Marker.heralded_fenceOpening rfl rfl, Marker.heralded_fenceClosing rfl⟩
    · exact (hshown r hr).imp Marker.heralded_of_showsFront Marker.heralded_of_showsFront
  leaf := by
    intro kind hkind
    cases kind with
    | code =>
      exact ⟨⟨.leaf .code, .fenceOpening, .fenceClosing⟩, rfl, .head _, fun _ _ _ => rfl,
        fun _ => rfl, by decide, by decide⟩
    | math =>
      exact ⟨⟨.leaf .math, .literal "$$".toList, .literal "$$".toList⟩, rfl, .tail _ (.head _),
        fun _ _ _ => rfl, fun _ => rfl, by decide, by decide⟩
    | text => exact absurd rfl hkind
  container := fun _ hheading => frames_coqmd fun _ hc => (hheading.title_ne hc).2.2.1
  apart := by decide

end RegionGrammar

end Worksheet
