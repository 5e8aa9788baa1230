import Mathlib.Data.List.Infix
import Worksheet.Proofs.Region.Canonical

/-! # Writing what was read

  Where leaves are written between their own markers and a text opens no container, writing what
  was read from the text gives the text back, with one exception: a region at its end that is never
  closed is closed now (`RegionGrammar.Mirrors.write_read`). When the result is read again, the
  closing marker there must do no more than that. It must not complete another marker that
  begins before it, so no opening marker may begin inside another one and no closing marker may
  overlap itself (`RegionGrammar.Mirrors.segments_append_missing`).
-/

namespace Worksheet

/-! ### Texts that overlap -/

namespace Text

theorem prefix_append_cases {p s t : Text} (h : p <+: s ++ t) :
    p <+: s ∨ ∃ q, q ≠ [] ∧ q <+: t ∧ p = s ++ q := by
  rcases List.prefix_or_prefix_of_prefix h (List.prefix_append s t) with hshort | ⟨q, rfl⟩
  · exact .inl hshort
  · by_cases hq : q = []
    · subst hq
      rw [List.append_nil]
      exact .inl List.prefix_rfl
    · exact .inr ⟨q, hq, (List.prefix_append_right_inj s).1 h, rfl⟩

/-- A text that does not overlap itself: no proper front part of it is an end part as well. -/
def Unbordered (text : Text) : Prop := ∀ t ∈ text.tails, t <+: text → t = [] ∨ t = text

instance : DecidablePred Unbordered := fun text =>
  List.decidableBAll (fun t => t <+: text → t = [] ∨ t = text) text.tails

/-- In front of a text that does not overlap itself, the same text is found only if all of it is
    there. -/
theorem Unbordered.prefix_of_prefix_append {text s : Text} (h : text.Unbordered) (hs : s ≠ [])
    (hfront : text <+: s ++ text) : text <+: s := by
  rcases prefix_append_cases hfront with hfront | ⟨t, hne, ht, htext⟩
  · exact hfront
  · have htail : t ∈ text.tails := (List.mem_tails t text).2 ⟨s, htext.symm⟩
    rcases h t htail ht with rfl | rfl
    · exact absurd rfl hne
    · exact absurd (List.append_left_eq_self.1 htext.symm) hs

end Text

/-! ### Fixed markers -/

namespace Marker

variable {text : Text}

theorem matchAt?_literal_eq_none_iff (htext : text ≠ []) {s : Text} :
    (literal text).matchAt? s = none ↔ ¬text <+: s := by
  refine ⟨?_, fun h => matchAt?_eq_none_of_front (m := literal text) h⟩
  rintro hnone ⟨rest, rfl⟩
  rw [matchAt?_literal htext] at hnone
  cases hnone

theorem eq_of_matchAt?_literal {s : Text} {found : Match}
    (h : (literal text).matchAt? s = some found) : found = ⟨text, [], found.rest⟩ := by
  obtain ⟨rest, -, rfl⟩ := Option.map_eq_some_iff.1 (Option.filter_eq_some_iff.1 h).1
  rfl

theorem eq_of_find?_literal {s before : Text} {found : Match}
    (h : (literal text).find? s = some (before, found)) : found = ⟨text, [], found.rest⟩ :=
  eq_of_matchAt?_literal (clear_of_find? h).2

/-- A fixed text is found at the same place if there is more behind it. -/
theorem find?_literal_append (htext : text ≠ []) {s before rest : Text}
    (h : (literal text).find? s = some (before, ⟨text, [], rest⟩)) (t : Text) :
    (literal text).find? (s ++ t) = some (before, ⟨text, [], rest ++ t⟩) := by
  have hs : s = before ++ text ++ rest := eq_append_of_find? h
  -- an earlier match would be of the same length, so it would not reach what is behind
  have hclear : (literal text).Clear before (text ++ rest ++ t) := by
    refine (clear_of_find? h).1.append_right ?_
    intro x _ _ hfront hnone
    have hshort : text <+: x ++ (text ++ rest) := by
      refine List.prefix_of_prefix_length_le hfront ⟨t, ?_⟩ ?_
      · simp only [List.append_assoc]
      · simp only [List.length_append]
        omega
    exact (matchAt?_literal_eq_none_iff htext).1 hnone hshort
  rw [hs, List.append_assoc, List.append_assoc, ← List.append_assoc text, find?_append hclear,
    List.append_assoc, find?_of_matchAt? (matchAt?_literal htext _)]
  exact congrArg (fun before => some (before, _)) (List.append_nil before)

/-- A fixed text that is nowhere to be found is found where it is put, if it does not overlap
    itself. -/
theorem find?_literal_append_self (htext : text ≠ []) (hborder : text.Unbordered) {s : Text}
    (h : (literal text).find? s = none) :
    (literal text).find? (s ++ text) = some (s, ⟨text, [], []⟩) := by
  have hclear : (literal text).Clear s text := by
    refine (clear_of_find?_eq_none h).append_right (t := text) ?_
    intro x hx _ hfront hnone
    rw [List.append_nil] at hnone
    exact (matchAt?_literal_eq_none_iff htext).1 hnone (hborder.prefix_of_prefix_append hx hfront)
  have hat := matchAt?_literal htext []
  rw [List.append_nil] at hat
  rw [find?_append hclear, find?_of_matchAt? hat]
  exact congrArg (fun before => some (before, _)) (List.append_nil s)

end Marker

/-! ### Regions between fixed markers -/

namespace Rule

variable {r : Rule} {kind : LeafKind} {closing : Text} {start : Match}

theorem close?_of_literal (hkind : r.kind = .leaf kind) (hclosing : r.closing = .literal closing)
    (s : Text) : r.close? s = (Marker.literal closing).find? s := by
  unfold close?
  rw [hkind, hclosing]

theorem region_of_find? (hkind : r.kind = .leaf kind) (hclosing : r.closing = .literal closing)
    {inner rest : Text}
    (h : (Marker.literal closing).find? start.rest = some (inner, ⟨closing, [], rest⟩)) :
    r.region start =
      (.region (.leaf kind) start.title start.lexeme inner (some closing), rest) := by
  unfold region
  rw [close?_of_literal hkind hclosing, h, hkind]

theorem region_of_find?_eq_none (hkind : r.kind = .leaf kind)
    (hclosing : r.closing = .literal closing)
    (h : (Marker.literal closing).find? start.rest = none) :
    r.region start = (.region (.leaf kind) start.title start.lexeme start.rest none, []) := by
  unfold region
  rw [close?_of_literal hkind hclosing, h, hkind]

end Rule

/-! ### The conditions -/

namespace RegionGrammar

/-- What makes an output grammar write leaves as a region grammar has found them, and keeps a
    closing marker at the end of a text from being part of any other marker. -/
structure Mirrors (g : RegionGrammar) (o : OutputGrammar) : Prop where
  /-- Text between regions has no delimiters. -/
  bare : o.ofLeafKind g.between = ⟨[], []⟩
  /-- The delimiters of a leaf are its markers. -/
  leaf : ∀ r ∈ g.rules, ∀ kind, r.kind = .leaf kind →
    r.opening = .literal (o.ofLeafKind kind).opening ∧
      r.closing = .literal (o.ofLeafKind kind).closing
  front_ne_nil : ∀ r ∈ g.rules, r.opening.front ≠ [] ∧ r.closing.front ≠ []
  unbordered : ∀ r ∈ g.rules, r.kind ≠ .collapsible → r.kind ≠ .input →
    r.closing.front.Unbordered
  /-- No opening marker begins inside another. -/
  apart : ∀ r ∈ g.rules, ∀ r' ∈ g.rules, ¬r.opening.front <:+: r'.opening.front.tail
  /-- Where an opening marker is the beginning of another, what the other has more does not hold what
      the closing marker begins with. -/
  longer : ∀ r ∈ g.rules, ∀ r' ∈ g.rules, r.opening.front <+: r'.opening.front →
    r.closing.front.head?.all fun c => c ∉ r'.opening.front.drop r.opening.front.length

/-- No opening marker of a container is in the text, not even what it begins with. -/
def ContainerFree (g : RegionGrammar) (s : Text) : Prop :=
  ∀ r ∈ g.rules, r.opening.front <:+: s → ∃ kind, r.kind = .leaf kind

/-- The kind of the region that a text ends in, if that region is never closed. -/
def openEnd? (g : RegionGrammar) (s : Text) : Option RegionKind :=
  match (g.segments s).getLast? with
  | some (.region kind _ _ _ none) => some kind
  | _ => none

end RegionGrammar

/-- What is written behind the inside of a region. -/
def OutputGrammar.closing (o : OutputGrammar) : RegionKind → Text
  | .leaf kind => (o.ofLeafKind kind).closing
  | .collapsible => o.collapsible.closing
  | .input => o.input.closing

/-- The segment with its region closed. -/
def Segment.closed (o : OutputGrammar) : Segment → Segment
  | .region kind title opening inner none =>
    .region kind title opening inner (some (o.closing kind))
  | segment => segment

namespace RegionGrammar

/-- The closing delimiter that is missing at the end of a text. -/
def missing (g : RegionGrammar) (o : OutputGrammar) (s : Text) : Text :=
  ((g.openEnd? s).map o.closing).getD []

variable {g : RegionGrammar}

theorem shape_closed (g : RegionGrammar) (o : OutputGrammar) (segment : Segment) :
    g.shape (segment.closed o) = g.shape segment := by
  cases segment with
  | plain text => rfl
  | region kind title opening inner closing =>
    cases closing with
    | some closing => rfl
    | none => cases kind <;> rfl

/-! ### The region at the end -/

theorem openEnd?_of_nextOpening?_eq_none {s : Text} (h : g.nextOpening? s = none) :
    g.openEnd? s = none := by
  unfold openEnd?
  rw [segments_of_nextOpening?_eq_none h]
  unfold Segment.plain?
  by_cases hs : s = []
  · rw [if_pos hs]
    rfl
  · rw [if_neg hs]
    rfl

/-- Behind a region that is closed, the end of the text is that of what follows. -/
theorem openEnd?_of_closed {s before title opening inner closing rest : Text} {kind : RegionKind}
    (h : g.segments s = Segment.plain? before ++
      .region kind title opening inner (some closing) :: g.segments rest) :
    g.openEnd? s = g.openEnd? rest := by
  unfold openEnd?
  rw [h, List.getLast?_append_of_ne_nil _ (List.cons_ne_nil _ _)]
  cases g.segments rest with
  | nil => rfl
  | cons next others => rw [List.getLast?_cons_cons]

theorem openEnd?_of_unclosed {s before title opening inner : Text} {kind : RegionKind}
    (h : g.segments s = Segment.plain? before ++ [.region kind title opening inner none]) :
    g.openEnd? s = some kind := by
  unfold openEnd?
  rw [h, List.getLast?_append_of_ne_nil _ (List.cons_ne_nil _ _)]
  rfl

theorem exists_mem_of_openEnd? {s : Text} {kind : RegionKind} (h : g.openEnd? s = some kind) :
    ∃ title opening inner, .region kind title opening inner none ∈ g.segments s := by
  unfold openEnd? at h
  split at h
  · next kind' title opening inner hlast =>
    cases h
    exact ⟨title, opening, inner, List.mem_of_getLast? hlast⟩
  · cases h

/-! ### Texts without containers -/

theorem ContainerFree.mono {s t : Text} (h : g.ContainerFree s) (ht : t <:+: s) :
    g.ContainerFree t := fun r hr hfront => h r hr (hfront.trans ht)

section

variable {s before inner : Text} {r : Rule} {start stop : Match}

/-- From an opening marker on. -/
theorem ContainerFree.of_nextOpening? (h : g.ContainerFree s)
    (hnext : g.nextOpening? s = some (before, r, start)) :
    g.ContainerFree (start.lexeme ++ start.rest) := by
  refine h.mono ?_
  rw [(eq_append_of_nextOpening? hnext).1, List.append_assoc]
  exact (List.suffix_append before _).isInfix

/-- Behind a region that is closed. -/
theorem ContainerFree.of_find? (h : g.ContainerFree s)
    (hnext : g.nextOpening? s = some (before, r, start)) {m : Marker}
    (hfind : m.find? start.rest = some (inner, stop)) : g.ContainerFree stop.rest := by
  refine (h.of_nextOpening? hnext).mono ?_
  rw [Marker.eq_append_of_find? hfind]
  exact ((List.suffix_append _ _).trans (List.suffix_append _ _)).isInfix

end

namespace Mirrors

variable {o : OutputGrammar} {s before : Text} {r : Rule} {start : Match}

/-- An opening marker is found wherever the text begins as it does. -/
theorem matchAt?_eq_none_iff (h : g.Mirrors o) (hs : g.ContainerFree s) (hr : r ∈ g.rules) :
    r.opening.matchAt? s = none ↔ ¬r.opening.front <+: s := by
  refine ⟨?_, Marker.matchAt?_eq_none_of_front⟩
  intro hnone hfront
  obtain ⟨kind, hkind⟩ := hs r hr hfront.isInfix
  have hne := (h.front_ne_nil r hr).1
  rw [(h.leaf r hr kind hkind).1] at hnone hfront hne
  exact (Marker.matchAt?_literal_eq_none_iff hne).1 hnone hfront

theorem opening_ne_nil (h : g.Mirrors o) (hr : r ∈ g.rules) {kind : LeafKind}
    (hkind : r.kind = .leaf kind) : (o.ofLeafKind kind).opening ≠ [] := by
  have hne := (h.front_ne_nil r hr).1
  rw [(h.leaf r hr kind hkind).1] at hne
  exact hne

theorem closing_ne_nil (h : g.Mirrors o) (hr : r ∈ g.rules) {kind : LeafKind}
    (hkind : r.kind = .leaf kind) : (o.ofLeafKind kind).closing ≠ [] := by
  have hne := (h.front_ne_nil r hr).2
  rw [(h.leaf r hr kind hkind).2] at hne
  exact hne

theorem unbordered_closing (h : g.Mirrors o) (hr : r ∈ g.rules) {kind : LeafKind}
    (hkind : r.kind = .leaf kind) : (o.ofLeafKind kind).closing.Unbordered := by
  have hcollapsible : r.kind ≠ .collapsible := by simp [hkind]
  have hinput : r.kind ≠ .input := by simp [hkind]
  have hborder := h.unbordered r hr hcollapsible hinput
  rw [(h.leaf r hr kind hkind).2] at hborder
  exact hborder

/-- A region that is opened is that of a leaf, behind the delimiter of the leaf. -/
theorem exists_leaf (h : g.Mirrors o) (hs : g.ContainerFree s)
    (hopen : g.openingAt? s = some (r, start)) :
    ∃ kind, r.kind = .leaf kind ∧ start = ⟨(o.ofLeafKind kind).opening, [], start.rest⟩ := by
  obtain ⟨r', hr', hfound⟩ := List.exists_of_findSome?_eq_some hopen
  obtain ⟨start', hat, hpair⟩ := Option.map_eq_some_iff.1 hfound
  obtain ⟨rfl, rfl⟩ := Prod.mk.inj hpair
  obtain ⟨kind, hkind⟩ := hs r' hr' (Marker.front_prefix_of_matchAt? hat).isInfix
  refine ⟨kind, hkind, ?_⟩
  rw [(h.leaf r' hr' kind hkind).1] at hat
  exact Marker.eq_of_matchAt?_literal hat

/-! ### More text behind -/

/-- The text behind a region completes no opening marker at the place of the region, as long as what
    the closing marker begins with follows somewhere. -/
theorem prefix_of_prefix_append (h : g.Mirrors o) (hr : r ∈ g.rules) {r' : Rule}
    (hr' : r' ∈ g.rules) {inner t : Text} {c : Char} (hc : c ∈ r.closing.front.head?)
    (ht : c ∈ inner ∨ t.head? = some c)
    (hfront : r'.opening.front <+: r.opening.front ++ inner ++ t) :
    r'.opening.front <+: r.opening.front ++ inner := by
  rcases Text.prefix_append_cases hfront with hfront | ⟨u, hne, hu, hfront⟩
  · exact hfront
  · -- the longer marker would hold the beginning of the closing marker
    rw [List.append_assoc] at hfront
    have hdrop : r'.opening.front.drop r.opening.front.length = inner ++ u := by
      rw [hfront, List.drop_left]
    have hlonger := (Option.all_eq_true _ _).1 (h.longer r hr r' hr' ⟨_, hfront.symm⟩) c hc
    refine absurd ?_ (of_decide_eq_true hlonger)
    rw [hdrop, List.mem_append]
    refine ht.imp_right ?_
    intro hhead
    obtain ⟨x, u, rfl⟩ := List.exists_cons_of_ne_nil hne
    obtain ⟨v, rfl⟩ := hu
    rw [Option.some.inj hhead]
    exact List.mem_cons_self

theorem openingAt?_append (h : g.Mirrors o) (hs : g.ContainerFree s)
    (hopen : g.openingAt? s = some (r, start)) {t : Text} {c : Char}
    (hc : c ∈ r.closing.front.head?) (ht : c ∈ start.rest ∨ t.head? = some c) :
    g.openingAt? (s ++ t) = some (r, ⟨start.lexeme, [], start.rest ++ t⟩) := by
  obtain ⟨kind, hkind, hstart⟩ := h.exists_leaf hs hopen
  obtain ⟨earlier, r', later, hrules, hfound, hearlier⟩ := List.findSome?_eq_some_iff.1 hopen
  obtain ⟨start', hat, hpair⟩ := Option.map_eq_some_iff.1 hfound
  obtain ⟨rfl, rfl⟩ := Prod.mk.inj hpair
  have hmem : r' ∈ g.rules := by
    rw [hrules]
    exact List.mem_append_right _ List.mem_cons_self
  have hmarker := (h.leaf r' hmem kind hkind).1
  have hlexeme : start'.lexeme = r'.opening.front := by
    rw [hstart, hmarker]
    rfl
  have hsplit := Marker.eq_append_of_matchAt? hat
  rw [hlexeme] at hsplit
  refine openingAt?_of_matchAt? earlier hrules ?_ ?_
  · intro r'' hr''
    have hmem'' : r'' ∈ g.rules := by
      rw [hrules]
      exact List.mem_append_left _ hr''
    refine Marker.matchAt?_eq_none_of_front fun hfront => ?_
    have hnone := Option.map_eq_none_iff.1 (hearlier r'' hr'')
    rw [hsplit] at hfront
    have hshort := h.prefix_of_prefix_append hmem hmem'' hc ht hfront
    rw [← hsplit] at hshort
    exact (h.matchAt?_eq_none_iff hs hmem'').1 hnone hshort
  · rw [hsplit, hlexeme, List.append_assoc, hmarker]
    exact Marker.matchAt?_literal (h.opening_ne_nil hmem hkind) _

/-- In front of an opening marker, more text behind it completes no other one, since that would
    have the marker inside. -/
theorem clear_append (h : g.Mirrors o) (hr : r ∈ g.rules) {inner : Text}
    (hs : g.ContainerFree (before ++ (r.opening.front ++ inner))) {r' : Rule} (hr' : r' ∈ g.rules)
    (hclear : r'.opening.Clear before (r.opening.front ++ inner)) (t : Text) :
    r'.opening.Clear before (r.opening.front ++ inner ++ t) := by
  refine hclear.append_right ?_
  rintro x hx ⟨y, rfl⟩ hfront hnone
  have hfree : g.ContainerFree (x ++ (r.opening.front ++ inner)) := by
    refine hs.mono ⟨y, [], ?_⟩
    rw [List.append_nil, List.append_assoc]
  rw [← List.append_assoc] at hfront
  rcases Text.prefix_append_cases hfront with hfront | ⟨u, -, -, hfront⟩
  · exact (h.matchAt?_eq_none_iff hfree hr').1 hnone hfront
  · obtain ⟨a, x, rfl⟩ := List.exists_cons_of_ne_nil hx
    refine h.apart r hr r' hr' ⟨x, inner ++ u, ?_⟩
    rw [hfront]
    simp only [List.append_assoc, List.cons_append, List.tail_cons]

/-- The first region is found at the same place with more behind the text. -/
theorem nextOpening?_append (h : g.Mirrors o) (hs : g.ContainerFree s)
    (hnext : g.nextOpening? s = some (before, r, start)) {t : Text} {c : Char}
    (hc : c ∈ r.closing.front.head?) (ht : c ∈ start.rest ∨ t.head? = some c) :
    g.nextOpening? (s ++ t) = some (before, r, ⟨start.lexeme, [], start.rest ++ t⟩) := by
  obtain ⟨hclear, hopen⟩ := clear_of_nextOpening? hnext
  have hmem := mem_rules_of_nextOpening? hnext
  have hsplit := (eq_append_of_nextOpening? hnext).1
  rw [List.append_assoc] at hsplit
  have hfree := hs.of_nextOpening? hnext
  obtain ⟨kind, hkind, hstart⟩ := h.exists_leaf hfree hopen
  have hlexeme : start.lexeme = r.opening.front := by
    rw [hstart, (h.leaf r hmem kind hkind).1]
    rfl
  rw [hsplit, hlexeme] at hs
  rw [hlexeme] at hclear
  have hclear' := fun r' hr' => h.clear_append hmem hs hr' (hclear r' hr') t
  rw [hsplit, List.append_assoc, hlexeme, RegionGrammar.nextOpening?_append hclear', ← hlexeme,
    nextOpening?_of_openingAt? (h.openingAt?_append hfree hopen hc ht)]
  exact congrArg (fun before => some (before, r, _)) (List.append_nil before)

/-! ### Closing the region at the end -/

/-- The first region is that of a leaf, between the delimiters of the leaf. -/
theorem leaf_of_nextOpening? (h : g.Mirrors o) (hs : g.ContainerFree s)
    (hnext : g.nextOpening? s = some (before, r, start)) :
    ∃ kind, r.kind = .leaf kind ∧ start = ⟨(o.ofLeafKind kind).opening, [], start.rest⟩ ∧
      r.closing = .literal (o.ofLeafKind kind).closing := by
  have hfree := hs.of_nextOpening? hnext
  obtain ⟨kind, hkind, hstart⟩ := h.exists_leaf hfree (clear_of_nextOpening? hnext).2
  exact ⟨kind, hkind, hstart, (h.leaf r (mem_rules_of_nextOpening? hnext) kind hkind).2⟩

theorem map_closed_plain? (o : OutputGrammar) (s : Text) :
    (Segment.plain? s).map (Segment.closed o) = Segment.plain? s := by
  unfold Segment.plain?
  split <;> rfl

/-- The region that an opening marker begins is that of a leaf. Either it is closed, and then it is
    the same whatever is behind the text, and reading goes on behind it. Or it is never closed, and
    then it is closed by its closing marker. -/
theorem region_cases (h : g.Mirrors o) (hs : g.ContainerFree s)
    (hnext : g.nextOpening? s = some (before, r, start)) :
    ∃ kind, r.kind = .leaf kind ∧
      ((∃ inner, g.ContainerFree (r.region start).2 ∧ ∀ t, g.segments (s ++ t) =
          Segment.plain? before ++ .region (.leaf kind) [] (o.ofLeafKind kind).opening inner
            (some (o.ofLeafKind kind).closing) :: g.segments ((r.region start).2 ++ t)) ∨
        ∃ inner, g.segments s = Segment.plain? before ++
            [.region (.leaf kind) [] (o.ofLeafKind kind).opening inner none] ∧
          g.segments (s ++ (o.ofLeafKind kind).closing) = Segment.plain? before ++
            [.region (.leaf kind) [] (o.ofLeafKind kind).opening inner
              (some (o.ofLeafKind kind).closing)]) := by
  obtain ⟨kind, hkind, hstart, hclosing⟩ := h.leaf_of_nextOpening? hs hnext
  have hmem := mem_rules_of_nextOpening? hnext
  have hne := h.closing_ne_nil hmem hkind
  have hlexeme : start.lexeme = (o.ofLeafKind kind).opening := by rw [hstart]
  have htitle : start.title = [] := by rw [hstart]
  obtain ⟨c, hhead⟩ := Option.isSome_iff_exists.1 (List.isSome_head?.2 hne)
  have hc : c ∈ r.closing.front.head? := by
    rw [hclosing]
    exact hhead
  refine ⟨kind, hkind, ?_⟩
  cases hfind : (Marker.literal (o.ofLeafKind kind).closing).find? start.rest with
  | some found =>
    obtain ⟨inner, stop⟩ := found
    have hrest := hs.of_find? hnext hfind
    have hin : c ∈ start.rest := by
      have hstop := congrArg Match.lexeme (Marker.eq_of_find?_literal hfind)
      rw [Marker.eq_append_of_find? hfind, hstop]
      exact List.mem_append_left _ (List.mem_append_right _ (List.mem_of_mem_head? hhead))
    rw [Marker.eq_of_find?_literal hfind] at hfind
    have hregion := Rule.region_of_find? hkind hclosing hfind
    refine .inl ⟨inner, ?_, fun t => ?_⟩
    · rw [hregion]
      exact hrest
    · have hnext' := h.nextOpening?_append hs hnext hc (t := t) (.inl hin)
      have hmore := Marker.find?_literal_append hne hfind t
      rw [segments_of_nextOpening? hnext', Rule.region_of_find? hkind hclosing hmore, hregion,
        hlexeme]
  | none =>
    -- put behind the text, the closing marker is found there and not earlier
    have hnil : g.segments [] = [] := segments_of_nextOpening?_eq_none rfl
    have hnext' := h.nextOpening?_append hs hnext hc (.inr hhead)
    have hmore := Marker.find?_literal_append_self hne (h.unbordered_closing hmem hkind) hfind
    refine .inr ⟨start.rest, ?_, ?_⟩
    · rw [segments_of_nextOpening? hnext, Rule.region_of_find?_eq_none hkind hclosing hfind, hnil,
        hlexeme, htitle]
    · rw [segments_of_nextOpening? hnext', Rule.region_of_find? hkind hclosing hmore, hnil, hlexeme]

/-- A closing delimiter that is put where it is missing closes the region at the end and does nothing
    else. -/
theorem segments_append_missing (h : g.Mirrors o) (hs : g.ContainerFree s) :
    g.segments (s ++ g.missing o s) = (g.segments s).map (Segment.closed o) := by
  fun_induction segments g s with
  | case1 s hnext =>
    have hmissing : g.missing o s = [] := by
      unfold missing
      rw [openEnd?_of_nextOpening?_eq_none hnext]
      rfl
    rw [hmissing, List.append_nil, segments_of_nextOpening?_eq_none hnext, map_closed_plain?]
  | case2 s before r start hnext ih =>
    obtain ⟨kind, hkind, ⟨inner, hrest, hmore⟩ | ⟨inner, hsegments, hmore⟩⟩ :=
      h.region_cases hs hnext
    · -- the region is closed: the end of the text is behind it
      have hsegments := hmore []
      rw [List.append_nil, List.append_nil] at hsegments
      have hmissing : g.missing o s = g.missing o (r.region start).2 := by
        unfold missing
        rw [openEnd?_of_closed hsegments]
      rw [← segments_of_nextOpening? hnext, hmissing, hmore, ih hrest, hsegments, List.map_append,
        map_closed_plain?]
      rfl
    · have hmissing : g.missing o s = (o.ofLeafKind kind).closing := by
        unfold missing
        rw [openEnd?_of_unclosed hsegments]
        rfl
      rw [← segments_of_nextOpening? hnext, hmissing, hmore, hsegments, List.map_append,
        map_closed_plain?]
      rfl

/-! ### What is written -/

/-- A text without containers has no regions but those of leaves, and they are between the
    delimiters of the leaves. -/
theorem plain_or_leaf_of_mem (h : g.Mirrors o) (hs : g.ContainerFree s) {segment : Segment}
    (hsegment : segment ∈ g.segments s) :
    (∃ text, segment = .plain text) ∨ ∃ r ∈ g.rules, ∃ kind inner closing, r.kind = .leaf kind ∧
      segment = .region (.leaf kind) [] (o.ofLeafKind kind).opening inner closing ∧
      (closing = none ∨ closing = some (o.ofLeafKind kind).closing) := by
  have hplain : ∀ text, segment ∈ Segment.plain? text → ∃ text, segment = .plain text := by
    intro text htext
    unfold Segment.plain? at htext
    split at htext
    · exact nomatch htext
    · exact ⟨text, List.mem_singleton.1 htext⟩
  fun_induction segments g s with
  | case1 s hnext => exact .inl (hplain s hsegment)
  | case2 s before r start hnext ih =>
    have hmem := mem_rules_of_nextOpening? hnext
    rw [← segments_of_nextOpening? hnext] at hsegment
    obtain ⟨kind, hkind, ⟨inner, hrest, hmore⟩ | ⟨inner, hsegments, -⟩⟩ := h.region_cases hs hnext
    · have hsegments := hmore []
      rw [List.append_nil, List.append_nil] at hsegments
      rw [hsegments] at hsegment
      rcases List.mem_append.1 hsegment with hsegment | hsegment
      · exact .inl (hplain before hsegment)
      rcases List.mem_cons.1 hsegment with rfl | hsegment
      · exact .inr ⟨r, hmem, kind, inner, _, hkind, rfl, .inr rfl⟩
      · exact ih hrest hsegment
    · rw [hsegments] at hsegment
      rcases List.mem_append.1 hsegment with hsegment | hsegment
      · exact .inl (hplain before hsegment)
      · obtain rfl := List.mem_singleton.1 hsegment
        exact .inr ⟨r, hmem, kind, inner, none, hkind, rfl, .inl rfl⟩

/-- The area that a segment is read as is written as the segment, closed. -/
theorem text_render_shape (h : g.Mirrors o) (hs : g.ContainerFree s) {segment : Segment}
    (hsegment : segment ∈ g.segments s) :
    ((g.shape segment).render o).text = (segment.closed o).text := by
  rcases h.plain_or_leaf_of_mem hs hsegment with
    ⟨text, rfl⟩ | ⟨-, -, kind, inner, closing, -, rfl, hclosing⟩
  · exact LeafShape.text_render_of_bare h.bare (s := ⟨g.between, text⟩) rfl
  · rcases hclosing with rfl | rfl <;> rfl

/-- Writing what was read gives the text, with the closing delimiter that is missing at its end. -/
theorem write_read (h : g.Mirrors o) (hs : g.ContainerFree s) :
    Shape.write o (g.read s) = s ++ g.missing o s := by
  calc Shape.write o (g.read s)
      = (g.segments s).flatMap fun segment => ((g.shape segment).render o).text :=
        List.flatMap_map _ _ _
    _ = (g.segments s).flatMap fun segment => (segment.closed o).text :=
        List.flatMap_congr fun _ hsegment => h.text_render_shape hs hsegment
    _ = ((g.segments s).map (Segment.closed o)).flatMap Segment.text :=
        (List.flatMap_map _ _ _).symm
    _ = s ++ g.missing o s := by rw [← h.segments_append_missing hs, flatMap_segments]

/-- What was written is read as the text was. -/
theorem read_write_read (h : g.Mirrors o) (hs : g.ContainerFree s) :
    g.read (Shape.write o (g.read s)) = g.read s := by
  rw [h.write_read hs]
  unfold read
  rw [h.segments_append_missing hs, List.map_map]
  exact List.map_congr_left fun segment _ => shape_closed g o segment

/-- A closing delimiter is missing exactly if the region at the end is never closed. -/
theorem missing_eq_nil_iff (h : g.Mirrors o) (hs : g.ContainerFree s) :
    g.missing o s = [] ↔ g.openEnd? s = none := by
  unfold missing
  cases hend : g.openEnd? s with
  | none => exact iff_of_true rfl rfl
  | some kind =>
    obtain ⟨title, opening, inner, hmem⟩ := exists_mem_of_openEnd? hend
    rcases h.plain_or_leaf_of_mem hs hmem with ⟨_, hplain⟩ | ⟨r, hr, kind', _, _, hkind, heq, -⟩
    · cases hplain
    · cases heq
      exact iff_of_false (h.closing_ne_nil hr hkind) nofun

end Mirrors

/-! ### The grammars with comments -/

theorem mirrors_coq : coq.Mirrors .coq where
  bare := rfl
  leaf := by
    intro r hr kind hkind
    simp only [coq, List.mem_cons, List.not_mem_nil, or_false] at hr
    rcases hr with rfl | rfl | rfl | rfl <;> cases hkind <;> exact ⟨rfl, rfl⟩
  front_ne_nil := by decide
  unbordered := by decide
  apart := by decide
  longer := by decide

theorem mirrors_leanPure : leanPure.Mirrors .leanPure where
  bare := rfl
  leaf := by
    intro r hr kind hkind
    simp only [leanPure, List.mem_cons, List.not_mem_nil, or_false] at hr
    rcases hr with rfl | rfl | rfl | rfl <;> cases hkind <;> exact ⟨rfl, rfl⟩
  front_ne_nil := by decide
  unbordered := by decide
  apart := by decide
  longer := by decide

end RegionGrammar

end Worksheet
