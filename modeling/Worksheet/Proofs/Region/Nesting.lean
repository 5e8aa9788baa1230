import Worksheet.Proofs.Area.Forest
import Worksheet.Proofs.Region.Canonical

/-! # Containers inside containers

  The scan for the end of a container counts the markers of one rule only. A container of that rule
  inside it opens and closes once; one of the other kind has markers the rule does not see. So the
  scan goes through whatever is nested in a container and stops at the container's own end
  (`RegionGrammar.Nests.passes_write`), and what is read is the outermost containers, with those
  inside them as prose (`RegionGrammar.Nests.read_write`).
-/

namespace Worksheet

/-! ### The conditions -/

/-- A title of plain characters that stays within its line and its quotes. -/
def Text.IsTitleOf (isPlain : Char → Bool) (title : Text) : Prop :=
  ∀ c ∈ title, isPlain c = true ∧ c ∉ ['"', '\r', '\n']

instance (isPlain : Char → Bool) : DecidablePred (Text.IsTitleOf isPlain) :=
  fun title => List.decidableBAll (fun c => isPlain c = true ∧ c ∉ ['"', '\r', '\n']) title

/-- The delimiters of a container do not begin or end a container of the other kind. The opening
    delimiter of a collapsible with a title is the title between `front` and `back`. -/
def RegionGrammar.KeepsContainersApart (g : RegionGrammar) (o : OutputGrammar) (herald : Char)
    (front back : Text) : Prop :=
  (∀ r ∈ g.rules, r.kind = .input →
    ∀ s ∈ [o.collapsible.opening, front, back, o.collapsible.closing],
      r.opening.Apart herald s ∧ r.closing.Apart herald s) ∧
  ∀ r ∈ g.rules, r.kind = .collapsible → ∀ s ∈ [o.input.opening, o.input.closing],
    r.opening.Apart herald s ∧ r.closing.Apart herald s

instance (g : RegionGrammar) (o : OutputGrammar) (herald : Char) (front back : Text) :
    Decidable (g.KeepsContainersApart o herald front back) :=
  inferInstanceAs (Decidable (_ ∧ _))

/-- What makes a region grammar find the end of a container whatever is nested in it. -/
structure RegionGrammar.Nests (g : RegionGrammar) (o : OutputGrammar) (isPlain : Char → Bool)
    (herald : Char) (front back : Text) : Prop extends g.Undoes o isPlain herald where
  kind_inj : ∀ r ∈ g.rules, ∀ r' ∈ g.rules, r.kind = r'.kind → r = r'
  /-- The opening marker of a container cannot be taken for its closing marker. -/
  closing_apart : ∀ r ∈ g.rules, r.kind = .collapsible ∨ r.kind = .input →
    ¬r.closing.front <+: r.opening.front ∧ ¬r.opening.front <+: r.closing.front
  frames : ∀ heading : Heading, heading.Titled (Text.IsTitleOf isPlain) →
    ∃ r : Rule, r.kind = heading.regionKind ∧
      r.Frames g herald (o.ofHeading heading) heading.title fun _ => True
  titled : ∀ title : Text, title ≠ [] →
    o.ofTitle title = ⟨front ++ title ++ back, o.collapsible.closing⟩
  head?_back : back.head? ≠ some herald
  containers_apart : g.KeepsContainersApart o herald front back

/-! ### The scan for the end -/

namespace Rule

variable {r : Rule}

/-- A text between the two markers of a rule is gone through as far as it is without them. -/
theorem passes_enclosed {opening title s closing after : Text}
    (hnot : r.closing.matchAt? (opening ++ (s ++ (closing ++ after))) = none)
    (hopening : r.opening.matchAt? (opening ++ (s ++ (closing ++ after))) =
      some ⟨opening, title, s ++ (closing ++ after)⟩)
    (hs : r.Passes s (closing ++ after))
    (hclosing : r.closing.matchAt? (closing ++ after) = some ⟨closing, [], after⟩) :
    r.Passes (opening ++ (s ++ closing)) after := by
  intro depth
  rw [List.append_assoc, List.append_assoc, balance?_of_opening hnot hopening, hs (depth + 1),
    balance?_succ_of_matchAt? hclosing, Text.map_inFront_map, Text.map_inFront_map,
    ← List.append_assoc opening]

/-- A marker of a rule is at the place where the rule opens a region. -/
theorem matchAt?_of_openingAt? {g : RegionGrammar} {s : Text} {start : Match}
    (h : g.openingAt? s = some (r, start)) : r.opening.matchAt? s = some start := by
  obtain ⟨r', -, hopened⟩ := List.exists_of_findSome?_eq_some h
  obtain ⟨start', hat, hpair⟩ := Option.map_eq_some_iff.1 hopened
  obtain ⟨rfl, rfl⟩ := Prod.mk.inj hpair
  exact hat

/-- Where a marker begins that cannot be taken for the closing one, the closing one does not. -/
theorem closing_matchAt?_eq_none {s : Text} {start : Match}
    (happart : ¬r.closing.front <+: r.opening.front ∧ ¬r.opening.front <+: r.closing.front)
    (h : r.opening.matchAt? s = some start) : r.closing.matchAt? s = none := by
  refine Marker.matchAt?_eq_none_of_front ?_
  intro hclosing
  exact (List.prefix_or_prefix_of_prefix hclosing (Marker.front_prefix_of_matchAt? h)).elim
    happart.1 happart.2

end Rule

namespace RegionGrammar.Nests

variable {g : RegionGrammar} {o : OutputGrammar} {isPlain : Char → Bool} {herald : Char}
  {front back : Text}

/-- The delimiters of a container of another kind are gone through. -/
theorem passes_other (h : g.Nests o isPlain herald front back) {r : Rule} (hr : r ∈ g.rules)
    (hkind : ∀ kind, r.kind ≠ .leaf kind) {heading : Heading}
    (hheading : heading.Titled (Text.IsTitleOf isPlain)) (hother : r.kind ≠ heading.regionKind)
    {after : Text} (hafter : after.head? ≠ some herald) :
    r.Passes (o.ofHeading heading).opening after ∧
      r.Passes (o.ofHeading heading).closing after := by
  have happart : ∀ {s : Text}, (r.opening.Apart herald s ∧ r.closing.Apart herald s) →
      ∀ {after : Text}, after.head? ≠ some herald → r.Passes s after :=
    fun h _ hafter => Rule.passes_of_apart h.1 h.2 hafter
  cases heading with
  | input grade =>
    have hcollapsible := (Rule.container_of_ne_leaf hkind).resolve_right hother
    have hdelimiters := h.containers_apart.2 r hr hcollapsible
    exact ⟨happart (hdelimiters _ (.head _)) hafter,
      happart (hdelimiters _ (.tail _ (.head _))) hafter⟩
  | collapsible title =>
    have hinput := (Rule.container_of_ne_leaf hkind).resolve_left hother
    have hdelimiters := h.containers_apart.1 r hr hinput
    have hclosing := hdelimiters _ (.tail _ (.tail _ (.tail _ (.head _))))
    show r.Passes (o.ofTitle title).opening after ∧ r.Passes (o.ofTitle title).closing after
    by_cases hempty : title = []
    · have hd : o.ofTitle title = o.collapsible := if_pos hempty
      rw [hd]
      exact ⟨happart (hdelimiters _ (.head _)) hafter, happart hclosing hafter⟩
    · have hplain : ∀ c ∈ title, isPlain c = true := fun c hc => (hheading c hc).1
      have hback := head?_append_ne h.head?_back hafter
      rw [h.titled title hempty]
      refine ⟨?_, happart hclosing hafter⟩
      -- the title lies between two texts that are apart from the markers
      refine Rule.Passes.append (Rule.Passes.append ?_ ?_) ?_
      · exact happart (hdelimiters _ (.tail _ (.head _)))
          (head?_append_ne (h.head?_plain hplain) hback)
      · exact h.passes_plain hr hplain hback
      · exact happart (hdelimiters _ (.tail _ (.tail _ (.head _)))) hafter

theorem head?_enclosed (h : g.Nests o isPlain herald front back) {heading : Heading}
    (hheading : heading.Titled (Text.IsTitleOf isPlain)) {children : Forest}
    (hchildren : ∀ {after : Text}, after.head? ≠ some herald →
      (children.write o ++ after).head? ≠ some herald)
    {after : Text} (hafter : after.head? ≠ some herald) :
    (children.enclosed o heading ++ after).head? ≠ some herald := by
  obtain ⟨r, -, hr⟩ := h.frames heading hheading
  rw [Forest.enclosed_eq, List.append_assoc, List.append_assoc]
  exact head?_append_ne hr.head?_opening (hchildren (head?_append_ne hr.head?_closing hafter))

/-- What is written does not begin with a herald. -/
theorem head?_write (h : g.Nests o isPlain herald front back) {forest : Forest}
    (hforest : forest.IsPlain isPlain (Text.IsTitleOf isPlain)) {after : Text}
    (hafter : after.head? ≠ some herald) : (forest.write o ++ after).head? ≠ some herald := by
  induction forest generalizing after with
  | nil => exact hafter
  | leaf s rest ih =>
    rw [Forest.write, List.append_assoc]
    exact h.head?_leaf hforest.1 (ih hforest.2 hafter)
  | container heading children rest ihc ih =>
    rw [Forest.write_container, List.append_assoc]
    exact h.head?_enclosed hforest.1 (ihc hforest.2.1) (ih hforest.2.2 hafter)

/-- A container is gone through if what is in it is: its markers balance if they are those of the
    rule, and are not seen otherwise. -/
theorem passes_container (h : g.Nests o isPlain herald front back) {r : Rule} (hr : r ∈ g.rules)
    (hkind : ∀ kind, r.kind ≠ .leaf kind) {heading : Heading}
    (hheading : heading.Titled (Text.IsTitleOf isPlain)) {children : Forest}
    (hchildren : children.IsPlain isPlain (Text.IsTitleOf isPlain))
    (hpasses : ∀ {after : Text}, after.head? ≠ some herald → r.Passes (children.write o) after)
    {after : Text} (hafter : after.head? ≠ some herald) :
    r.Passes (children.enclosed o heading) after := by
  obtain ⟨r', hkind', hr'⟩ := h.frames heading hheading
  have hclosing := head?_append_ne hr'.head?_closing hafter
  rw [Forest.enclosed_eq]
  by_cases hown : r.kind = heading.regionKind
  · -- one rule only is for that kind, so the container opens and closes once
    obtain rfl := h.kind_inj r hr r' hr'.mem (hown.trans hkind'.symm)
    have hopening := Rule.matchAt?_of_openingAt? (hr'.opens (children.write o) after trivial)
    have happart := h.closing_apart r hr (Rule.container_of_ne_leaf hkind)
    exact Rule.passes_enclosed (Rule.closing_matchAt?_eq_none happart hopening) hopening
      (hpasses hclosing) (hr'.closes after)
  · -- its markers are not those of the rule
    refine Rule.Passes.append ?_ (Rule.Passes.append (hpasses hclosing) ?_)
    · refine (h.passes_other hr hkind hheading hown ?_).1
      rw [List.append_assoc]
      exact h.head?_write hchildren hclosing
    · exact (h.passes_other hr hkind hheading hown hafter).2

/-- The scan for the end of a container goes through everything that can be in one. -/
theorem passes_write (h : g.Nests o isPlain herald front back) {r : Rule} (hr : r ∈ g.rules)
    (hkind : ∀ kind, r.kind ≠ .leaf kind) {forest : Forest}
    (hforest : forest.IsPlain isPlain (Text.IsTitleOf isPlain)) {after : Text}
    (hafter : after.head? ≠ some herald) : r.Passes (forest.write o) after := by
  -- for what is in a container, what follows is the container's own closing delimiter
  induction forest generalizing after with
  | nil => exact Rule.passes_nil r after
  | leaf s rest ih =>
    rw [Forest.write]
    exact Rule.Passes.append (h.passes_leaf hr hkind hforest.1 (h.head?_write hforest.2 hafter))
      (ih hforest.2 hafter)
  | container heading children rest ihc ih =>
    rw [Forest.write_container]
    exact Rule.Passes.append
      (h.passes_container hr hkind hforest.1 hforest.2.1 (ihc hforest.2.1)
        (h.head?_write hforest.2.2 hafter))
      (ih hforest.2.2 hafter)

end RegionGrammar.Nests

/-! ### Segments -/

/-- The segments that areas are written as, where leaves of a kind have no delimiters. -/
def Forest.segments (o : OutputGrammar) (between : LeafKind) : Forest → List Segment
  | nil => []
  | leaf s rest => o.segment between (.leaf s) :: rest.segments o between
  | container heading children rest =>
    .region heading.regionKind heading.title (o.ofHeading heading).opening (children.write o)
      (some (o.ofHeading heading).closing) :: rest.segments o between

theorem Forest.segments_prepend (o : OutputGrammar) (between : LeafKind) (text : Text)
    (forest : Forest) :
    (forest.prepend between text).segments o between =
      Segment.prepend text (forest.segments o between) := by
  -- a text in front of what does not begin with a plain segment
  have hfront : (if text = [] then forest else .leaf ⟨between, text⟩ forest).segments o between =
      Segment.plain? text ++ forest.segments o between := by
    unfold Segment.plain?
    by_cases htext : text = []
    · rw [if_pos htext, if_pos htext]
      rfl
    · rw [if_neg htext, if_neg htext, segments,
        OutputGrammar.segment_bare o (s := ⟨between, _⟩) rfl]
      rfl
  cases forest with
  | nil | container heading children rest => exact hfront
  | leaf s rest =>
    rw [prepend]
    by_cases hs : s.kind = between
    · rw [if_pos hs, segments, segments, OutputGrammar.segment_bare o hs,
        OutputGrammar.segment_bare o (s := ⟨between, _⟩) rfl]
      rfl
    · rw [if_neg hs, hfront, segments, OutputGrammar.segment_leaf o hs]
      rfl

namespace RegionGrammar.Nests

variable {g : RegionGrammar} {o : OutputGrammar} {isPlain : Char → Bool} {herald : Char}
  {front back : Text}

/-- The outermost containers are found, each up to its own end. -/
theorem segments_write (h : g.Nests o isPlain herald front back) {forest : Forest}
    (hforest : forest.IsPlain isPlain (Text.IsTitleOf isPlain)) :
    g.segments (forest.write o) = (forest.merge g.between).segments o g.between := by
  have hfollows : ∀ {rest : Forest}, rest.IsPlain isPlain (Text.IsTitleOf isPlain) →
      (rest.write o).head? ≠ some herald := by
    intro rest hrest
    have hend : ([] : Text).head? ≠ some herald := nofun
    have hhead := h.head?_write hrest hend
    rwa [List.append_nil] at hhead
  induction forest with
  | nil =>
    show g.segments [] = []
    rw [segments_of_nextOpening?_eq_none rfl]
    rfl
  | leaf s rest ih =>
    have hafter := hfollows hforest.2
    rw [Forest.write, Forest.merge]
    by_cases hkind : s.kind = g.between
    · rw [if_pos hkind, Forest.segments_prepend, ← ih hforest.2]
      exact h.segments_bare hforest.1 hkind hafter
    · rw [if_neg hkind, Forest.segments, ← ih hforest.2]
      exact h.segments_leaf hforest.1 hkind hafter
  | container heading children rest _ ih =>
    obtain ⟨hheading, hchildren, hrest⟩ := hforest
    obtain ⟨r, hrkind, hr⟩ := h.frames heading hheading
    have hcontainer : ∀ kind, r.kind ≠ .leaf kind := by
      intro kind
      rw [hrkind]
      exact heading.regionKind_ne_leaf kind
    have hclosing := head?_append_ne hr.head?_closing (hfollows hrest)
    have hinner := h.passes_write hr.mem hcontainer hchildren hclosing
    rw [Forest.write_container, Forest.enclosed_eq, List.append_assoc, List.append_assoc,
      segments_of_close? (hr.opens _ _ trivial)
        (Rule.close?_container hcontainer hinner (hr.closes _)), hrkind, ih hrest]
    rfl

/-! ### What is read -/

theorem map_leafShape_segments (g : RegionGrammar) (o : OutputGrammar) (forest : Forest) :
    (forest.segments o g.between).map g.leafShape = forest.leaves (Forest.enclosed o) := by
  induction forest with
  | nil => rfl
  | leaf s rest ih =>
    rw [Forest.segments, List.map_cons, Undoes.leafShape_segment, ih]
    rfl
  | container heading children rest _ ih =>
    rw [Forest.segments, List.map_cons, ih]
    cases heading <;> rfl

/-- Inside a container, each leaf is read as itself and each container as prose that is all of it,
    markers included. -/
theorem leaves_write (h : g.Nests o isPlain herald front back) {forest : Forest}
    (hforest : forest.IsPlain isPlain (Text.IsTitleOf isPlain)) :
    g.leaves (forest.write o) = (forest.merge g.between).leaves (Forest.enclosed o) := by
  unfold RegionGrammar.leaves
  rw [h.segments_write hforest, map_leafShape_segments]

theorem map_shape_segments (h : g.Nests o isPlain herald front back) {forest : Forest}
    (hforest : forest.IsPlain isPlain (Text.IsTitleOf isPlain)) :
    (forest.segments o g.between).map g.shape =
      forest.shapes fun inside => (inside.merge g.between).leaves (Forest.enclosed o) := by
  induction forest with
  | nil => rfl
  | leaf s rest ih =>
    rw [Forest.segments, List.map_cons, Undoes.shape_segment_leaf, ih hforest.2]
    rfl
  | container heading children rest _ ih =>
    have hinside := h.leaves_write hforest.2.1
    rw [Forest.segments, List.map_cons, ih hforest.2.2]
    cases heading with
    | collapsible title =>
      exact congrArg (Shape.container (.collapsible title) · :: _) hinside
    | input grade => exact congrArg (Shape.container (.input .unattempted) · :: _) hinside

/-- Reading what was written gives the outermost areas back, merged. -/
theorem read_write (h : g.Nests o isPlain herald front back) {forest : Forest}
    (hforest : forest.IsPlain isPlain (Text.IsTitleOf isPlain)) :
    g.read (forest.write o) = (forest.merge g.between).shapes fun inside =>
      (inside.merge g.between).leaves (Forest.enclosed o) := by
  unfold read
  rw [h.segments_write hforest, h.map_shape_segments (hforest.merge g.between)]

end RegionGrammar.Nests

/-! ### The canonical grammars -/

/-- What a title of plain characters does not hold. -/
theorem Heading.Titled.ne {isPlain : Char → Bool} {heading : Heading}
    (h : heading.Titled (Text.IsTitleOf isPlain)) {c : Char} (hc : c ∈ heading.title) :
    isPlain c = true ∧ c ≠ '"' ∧ c ≠ '\r' ∧ c ≠ '\n' := by
  cases heading with
  | collapsible title =>
    obtain ⟨hplain, hnot⟩ := h c hc
    simp only [List.mem_cons, List.not_mem_nil, or_false, not_or] at hnot
    exact ⟨hplain, hnot⟩
  | input grade => exact nomatch hc

theorem Heading.Titled.line {isPlain : Char → Bool} {heading : Heading}
    (h : heading.Titled (Text.IsTitleOf isPlain)) :
    ∀ c ∈ heading.title, ¬(c = '\r' ∨ c = '\n') :=
  fun _ hc hend => hend.elim (h.ne hc).2.2.1 (h.ne hc).2.2.2

theorem Heading.Titled.not_mem {isPlain : Char → Bool} {heading : Heading}
    (h : heading.Titled (Text.IsTitleOf isPlain)) {c : Char} (hc : isPlain c = false) :
    c ∉ heading.title :=
  fun hmem => nomatch hc.symm.trans (h.ne hmem).1

namespace RegionGrammar

theorem nests_coq :
    coq.Nests .coq isPlainCoq '*' "(* begin details : ".toList " *)".toList where
  toUndoes := undoes_coq
  kind_inj := by decide
  closing_apart := by decide
  frames := fun _ hheading => frames_coq hheading.line (hheading.not_mem rfl)
  titled := fun _ htitle => if_neg htitle
  head?_back := by decide
  containers_apart := by decide

theorem nests_coqmd :
    coqmd.Nests .coqmd isPlainMarkdown '`' "<hint title=\"".toList "\">".toList where
  toUndoes := undoes_coqmd
  kind_inj := by decide
  closing_apart := by decide
  frames := fun _ hheading => frames_coqmd fun _ hc => (hheading.ne hc).2.1
  titled := fun _ htitle => if_neg htitle
  head?_back := by decide
  containers_apart := by decide

theorem nests_leanPure :
    leanPure.Nests .leanPure isPlainLean '-' "/- begin details : ".toList " -/".toList where
  toUndoes := undoes_leanPure
  kind_inj := by decide
  closing_apart := by decide
  frames := fun _ hheading => frames_leanPure hheading.line (hheading.not_mem rfl)
  titled := fun _ htitle => if_neg htitle
  head?_back := by decide
  containers_apart := by decide

end RegionGrammar

end Worksheet
