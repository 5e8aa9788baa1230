import Worksheet.Proofs.Area.Merging
import Worksheet.Proofs.Area.Plain
import Worksheet.Proofs.Region.Seam

/-! # Reading what was written

  A region grammar undoes an output grammar if its rules take the delimiters for what they are, and
  if no marker can lie across the seam between two written pieces (`RegionGrammar.Undoes`). Then
  every written area is read as one segment, or goes into the text between regions, so reading
  what was written gives the areas back, merged (`RegionGrammar.Undoes.read_write`).
-/

namespace Worksheet

/-! ### The conditions -/

namespace Heading

/-- What a region with the heading is read as. -/
def regionKind : Heading → RegionKind
  | collapsible _ => .collapsible
  | input _ => .input

/-- The title in the opening marker. -/
def title : Heading → Text
  | collapsible title => title
  | input _ => []

theorem regionKind_ne_leaf (heading : Heading) (kind : LeafKind) :
    heading.regionKind ≠ .leaf kind := by
  cases heading <;> exact nofun

theorem IsPlain.title_ne {heading : Heading} (h : heading.IsPlain) {c : Char}
    (hc : c ∈ heading.title) : c ≠ '*' ∧ c ≠ '-' ∧ c ≠ '"' ∧ c ≠ '\r' ∧ c ≠ '\n' := by
  cases heading with
  | collapsible title => exact Text.IsPlainTitle.ne h hc
  | input grade => exact nomatch hc

/-- A plain title stays within its line. -/
theorem IsPlain.line {heading : Heading} (h : heading.IsPlain) :
    ∀ c ∈ heading.title, ¬(c = '\r' ∨ c = '\n') := by
  intro c hc
  obtain ⟨-, -, -, hcr, hlf⟩ := h.title_ne hc
  exact fun h => h.elim hcr hlf

end Heading

theorem Rule.container_of_ne_leaf {r : Rule} (h : ∀ kind, r.kind ≠ .leaf kind) :
    r.kind = .collapsible ∨ r.kind = .input := by
  cases hkind : r.kind with
  | leaf kind => exact absurd hkind (h kind)
  | collapsible => exact .inl rfl
  | input => exact .inr rfl

/-- A rule takes delimiters for its markers, where what is inside is as `inside` says. -/
structure Rule.Frames (g : RegionGrammar) (r : Rule) (herald : Char) (d : Delimiters) (title : Text)
    (inside : Text → Prop) : Prop where
  mem : r ∈ g.rules
  opens : ∀ inner after, inside inner →
    g.openingAt? (d.opening ++ (inner ++ (d.closing ++ after))) =
      some (r, ⟨d.opening, title, inner ++ (d.closing ++ after)⟩)
  closes : ∀ after, r.closing.matchAt? (d.closing ++ after) = some ⟨d.closing, [], after⟩
  head?_opening : d.opening.head? ≠ some herald
  head?_closing : d.closing.head? ≠ some herald

/-- The delimiters of leaves do not begin or end a container. -/
def RegionGrammar.KeepsApart (g : RegionGrammar) (o : OutputGrammar) (herald : Char) : Prop :=
  ∀ r ∈ g.rules, r.kind = .collapsible ∨ r.kind = .input →
    ∀ kind ∈ [LeafKind.text, .code, .math], kind ≠ g.between →
      ∀ s ∈ [(o.ofLeafKind kind).opening, (o.ofLeafKind kind).closing],
        r.opening.Apart herald s ∧ r.closing.Apart herald s

instance (g : RegionGrammar) (o : OutputGrammar) (herald : Char) :
    Decidable (g.KeepsApart o herald) :=
  inferInstanceAs (Decidable (∀ r ∈ g.rules, r.kind = .collapsible ∨ r.kind = .input →
    ∀ kind ∈ [LeafKind.text, .code, .math], kind ≠ g.between →
      ∀ s ∈ [(o.ofLeafKind kind).opening, (o.ofLeafKind kind).closing],
        r.opening.Apart herald s ∧ r.closing.Apart herald s))

/-- What makes a region grammar read back what an output grammar writes. -/
structure RegionGrammar.Undoes (g : RegionGrammar) (o : OutputGrammar) (isPlain : Char → Bool)
    (herald : Char) : Prop where
  /-- Text between regions has no delimiters. -/
  bare : o.ofLeafKind g.between = ⟨[], []⟩
  herald_not_plain : isPlain herald = false
  heralded : ∀ r ∈ g.rules, r.opening.Heralded isPlain herald ∧ r.closing.Heralded isPlain herald
  leaf : ∀ kind, kind ≠ g.between → ∃ r : Rule, r.kind = .leaf kind ∧
    r.Frames g herald (o.ofLeafKind kind) [] fun inner => ∀ c ∈ inner, isPlain c = true
  container : ∀ heading : Heading, heading.IsPlain → ∃ r : Rule, r.kind = heading.regionKind ∧
    r.Frames g herald (o.ofHeading heading) heading.title fun _ => True
  apart : g.KeepsApart o herald

/-- The segment that an area is written as, where leaves of a kind have no delimiters. -/
def OutputGrammar.segment (o : OutputGrammar) (between : LeafKind) : Shape → Segment
  | .leaf s =>
    if s.kind = between then .plain s.content
    else .region (.leaf s.kind) [] (o.ofLeafKind s.kind).opening s.content
      (some (o.ofLeafKind s.kind).closing)
  | .container heading children =>
    .region heading.regionKind heading.title (o.ofHeading heading).opening
      (LeafShape.write o children) (some (o.ofHeading heading).closing)

namespace OutputGrammar

theorem segment_bare (o : OutputGrammar) {between : LeafKind} {s : LeafShape}
    (hs : s.kind = between) : o.segment between (.leaf s) = .plain s.content := if_pos hs

theorem segment_leaf (o : OutputGrammar) {between : LeafKind} {s : LeafShape}
    (hs : s.kind ≠ between) :
    o.segment between (.leaf s) = .region (.leaf s.kind) [] (o.ofLeafKind s.kind).opening s.content
      (some (o.ofLeafKind s.kind).closing) := if_neg hs

/-- Merged or not, the children of a container are written alike. -/
theorem segment_container_merge {o : OutputGrammar} {between : LeafKind}
    (h : o.ofLeafKind between = ⟨[], []⟩) (heading : Heading) (children : List LeafShape) :
    o.segment between (.container heading (LeafShape.merge between children)) =
      o.segment between (.container heading children) := by
  show Segment.region _ _ _ (LeafShape.write o _) _ = _
  rw [LeafShape.write_merge h]
  rfl

theorem map_segment_prepend (o : OutputGrammar) (between : LeafKind) (text : Text)
    (shapes : List Shape) :
    (Shape.prepend between text shapes).map (o.segment between) =
      Segment.prepend text (shapes.map (o.segment between)) := by
  -- a text in front of what does not begin with a plain segment
  have hfront : ∀ shapes : List Shape,
      (if text = [] then shapes else .leaf ⟨between, text⟩ :: shapes).map (o.segment between) =
        Segment.plain? text ++ shapes.map (o.segment between) := by
    intro shapes
    unfold Segment.plain?
    by_cases htext : text = []
    · rw [if_pos htext, if_pos htext]
      rfl
    · rw [if_neg htext, if_neg htext, List.map_cons,
        segment_bare o (s := ⟨between, _⟩) rfl]
      rfl
  cases shapes with
  | nil => exact hfront []
  | cons s rest =>
    cases s with
    | leaf s =>
      rw [Shape.prepend, List.map_cons]
      by_cases hs : s.kind = between
      · rw [if_pos hs, segment_bare o hs, List.map_cons,
        segment_bare o (s := ⟨between, _⟩) rfl]
        rfl
      · rw [if_neg hs, hfront, List.map_cons, segment_leaf o hs]
        rfl
    | container heading children => exact hfront _

end OutputGrammar

theorem head?_append_ne {c : Char} {s t : Text} (hs : s.head? ≠ some c) (ht : t.head? ≠ some c) :
    (s ++ t).head? ≠ some c := by
  cases s with
  | nil => exact ht
  | cons x s => exact hs

namespace RegionGrammar.Undoes

variable {g : RegionGrammar} {o : OutputGrammar} {isPlain : Char → Bool} {herald : Char}

/-! ### What written pieces begin with -/

theorem head?_plain (h : g.Undoes o isPlain herald) {s : Text} (hs : ∀ c ∈ s, isPlain c = true) :
    s.head? ≠ some herald := by
  intro hhead
  have hplain := hs herald (List.mem_of_mem_head? hhead)
  rw [h.herald_not_plain] at hplain
  exact nomatch hplain

theorem head?_leaf (h : g.Undoes o isPlain herald) {s : LeafShape} (hs : s.IsPlain isPlain)
    {after : Text} (hafter : after.head? ≠ some herald) :
    ((s.render o).text ++ after).head? ≠ some herald := by
  by_cases hkind : s.kind = g.between
  · rw [LeafShape.text_render_of_bare h.bare hkind]
    exact head?_append_ne (h.head?_plain hs) hafter
  · obtain ⟨r, -, hr⟩ := h.leaf s.kind hkind
    rw [LeafShape.text_render, List.append_assoc, List.append_assoc]
    exact head?_append_ne hr.head?_opening (head?_append_ne (h.head?_plain hs)
      (head?_append_ne hr.head?_closing hafter))

theorem head?_leaves (h : g.Undoes o isPlain herald) {leaves : List LeafShape}
    (hleaves : ∀ s ∈ leaves, s.IsPlain isPlain) {after : Text}
    (hafter : after.head? ≠ some herald) :
    (LeafShape.write o leaves ++ after).head? ≠ some herald := by
  induction leaves with
  | nil => exact hafter
  | cons s rest ih =>
    obtain ⟨hs, hrest⟩ := List.forall_mem_cons.1 hleaves
    rw [LeafShape.write_cons, List.append_assoc]
    exact h.head?_leaf hs (ih hrest)

/-- What is written does not begin with a herald. -/
theorem head?_write (h : g.Undoes o isPlain herald) {shapes : List Shape}
    (hshapes : ∀ s ∈ shapes, s.IsPlain isPlain) : (Shape.write o shapes).head? ≠ some herald := by
  induction shapes with
  | nil => exact nofun
  | cons s rest ih =>
    obtain ⟨hs, hrest⟩ := List.forall_mem_cons.1 hshapes
    rw [Shape.write_cons]
    cases s with
    | leaf s => exact h.head?_leaf hs (ih hrest)
    | container heading children =>
      obtain ⟨r, -, hr⟩ := h.container heading hs.1
      rw [Shape.text_render_container, List.append_assoc, List.append_assoc]
      exact head?_append_ne hr.head?_opening (h.head?_leaves hs.2
        (head?_append_ne hr.head?_closing (ih hrest)))

/-! ### What lies between markers -/

theorem clear_plain (h : g.Undoes o isPlain herald) {r : Rule} (hr : r ∈ g.rules) {s after : Text}
    (hs : ∀ c ∈ s, isPlain c = true) (hafter : after.head? ≠ some herald) :
    r.opening.Clear s after ∧ r.closing.Clear s after :=
  ⟨(h.heralded r hr).1.clear h.herald_not_plain hs hafter,
    (h.heralded r hr).2.clear h.herald_not_plain hs hafter⟩

theorem passes_plain (h : g.Undoes o isPlain herald) {r : Rule} (hr : r ∈ g.rules) {s after : Text}
    (hs : ∀ c ∈ s, isPlain c = true) (hafter : after.head? ≠ some herald) : r.Passes s after :=
  Rule.passes_of_clear (h.clear_plain hr hs hafter).1 (h.clear_plain hr hs hafter).2

theorem passes_delimiters (h : g.Undoes o isPlain herald) {r : Rule} (hr : r ∈ g.rules)
    (hkind : ∀ kind, r.kind ≠ .leaf kind) {kind : LeafKind} (hleaf : kind ≠ g.between)
    {after : Text} (hafter : after.head? ≠ some herald) :
    r.Passes (o.ofLeafKind kind).opening after ∧ r.Passes (o.ofLeafKind kind).closing after := by
  have hcontainer := Rule.container_of_ne_leaf hkind
  have hmem : kind ∈ [LeafKind.text, .code, .math] := by cases kind <;> decide
  have hapart := h.apart r hr hcontainer kind hmem hleaf
  obtain ⟨hopening, hopening'⟩ := hapart _ (.head _)
  obtain ⟨hclosing, hclosing'⟩ := hapart _ (.tail _ (.head _))
  exact ⟨Rule.passes_of_apart hopening hopening' hafter,
    Rule.passes_of_apart hclosing hclosing' hafter⟩

/-- A leaf neither begins nor ends a container. -/
theorem passes_leaf (h : g.Undoes o isPlain herald) {r : Rule} (hr : r ∈ g.rules)
    (hkind : ∀ kind, r.kind ≠ .leaf kind) {s : LeafShape} (hs : s.IsPlain isPlain) {after : Text}
    (hafter : after.head? ≠ some herald) : r.Passes (s.render o).text after := by
  by_cases hbare : s.kind = g.between
  · rw [LeafShape.text_render_of_bare h.bare hbare]
    exact h.passes_plain hr hs hafter
  · obtain ⟨r', -, hr'⟩ := h.leaf s.kind hbare
    have hclosing := head?_append_ne hr'.head?_closing hafter
    have hdelimiter := (h.passes_delimiters hr hkind hbare hafter).2
    -- opening, content and closing are gone through one after the other
    rw [LeafShape.text_render]
    refine Rule.Passes.append ?_ (Rule.Passes.append ?_ hdelimiter)
    · rw [List.append_assoc]
      exact (h.passes_delimiters hr hkind hbare
        (head?_append_ne (h.head?_plain hs) hclosing)).1
    · exact h.passes_plain hr hs hclosing

/-- Leaves neither begin nor end a container. -/
theorem passes_leaves (h : g.Undoes o isPlain herald) {r : Rule} (hr : r ∈ g.rules)
    (hkind : ∀ kind, r.kind ≠ .leaf kind) {leaves : List LeafShape}
    (hleaves : ∀ s ∈ leaves, s.IsPlain isPlain) {after : Text}
    (hafter : after.head? ≠ some herald) :
    r.Passes (LeafShape.write o leaves) after := by
  induction leaves with
  | nil => exact Rule.passes_nil r after
  | cons s rest ih =>
    obtain ⟨hs, hrest⟩ := List.forall_mem_cons.1 hleaves
    rw [LeafShape.write_cons]
    exact Rule.Passes.append (h.passes_leaf hr hkind hs (h.head?_leaves hrest hafter)) (ih hrest)

/-! ### One area -/

theorem segments_bare (h : g.Undoes o isPlain herald) {s : LeafShape} (hs : s.IsPlain isPlain)
    (hkind : s.kind = g.between) {after : Text} (hafter : after.head? ≠ some herald) :
    g.segments ((s.render o).text ++ after) = Segment.prepend s.content (g.segments after) := by
  rw [LeafShape.text_render_of_bare h.bare hkind]
  exact segments_append fun r hr => (h.clear_plain hr hs hafter).1

theorem segments_leaf (h : g.Undoes o isPlain herald) {s : LeafShape} (hs : s.IsPlain isPlain)
    (hkind : s.kind ≠ g.between) {after : Text} (hafter : after.head? ≠ some herald) :
    g.segments ((s.render o).text ++ after) =
      o.segment g.between (.leaf s) :: g.segments after := by
  obtain ⟨r, hrkind, hr⟩ := h.leaf s.kind hkind
  have hinner := (h.clear_plain hr.mem hs (head?_append_ne hr.head?_closing hafter)).2
  rw [LeafShape.text_render, List.append_assoc, List.append_assoc,
    segments_of_close? (hr.opens _ _ hs) (Rule.close?_leaf hrkind hinner (hr.closes after)), hrkind,
    OutputGrammar.segment_leaf o hkind]

theorem segments_container (h : g.Undoes o isPlain herald) {heading : Heading}
    {children : List LeafShape} (hs : (Shape.container heading children).IsPlain isPlain)
    {after : Text} (hafter : after.head? ≠ some herald) :
    g.segments (((Shape.container heading children).render o).text ++ after) =
      o.segment g.between (.container heading children) :: g.segments after := by
  obtain ⟨hheading, hchildren⟩ := hs
  obtain ⟨r, hrkind, hr⟩ := h.container heading hheading
  have hcontainer : ∀ kind, r.kind ≠ .leaf kind := by
    intro kind
    rw [hrkind]
    exact heading.regionKind_ne_leaf kind
  have hclosing := head?_append_ne hr.head?_closing hafter
  have hinner := h.passes_leaves hr.mem hcontainer hchildren hclosing
  rw [Shape.text_render_container, List.append_assoc, List.append_assoc,
    segments_of_close? (hr.opens _ _ trivial)
      (Rule.close?_container hcontainer hinner (hr.closes after)), hrkind]
  rfl

/-! ### All areas -/

/-- The segments of what is written are the areas, merged. -/
theorem segments_write (h : g.Undoes o isPlain herald) {shapes : List Shape}
    (hshapes : ∀ s ∈ shapes, s.IsPlain isPlain) :
    g.segments (Shape.write o shapes) =
      (Shape.merge g.between shapes).map (o.segment g.between) := by
  induction shapes with
  | nil =>
    show g.segments [] = []
    rw [segments_of_nextOpening?_eq_none rfl]
    rfl
  | cons s rest ih =>
    obtain ⟨hs, hrest⟩ := List.forall_mem_cons.1 hshapes
    have hafter := h.head?_write hrest
    rw [Shape.write_cons]
    cases s with
    | leaf s =>
      rw [Shape.merge]
      by_cases hkind : s.kind = g.between
      · rw [if_pos hkind, OutputGrammar.map_segment_prepend, ← ih hrest]
        exact h.segments_bare hs hkind hafter
      · rw [if_neg hkind, List.map_cons, ← ih hrest]
        exact h.segments_leaf hs hkind hafter
    | container heading children =>
      rw [Shape.merge, List.map_cons, ← ih hrest, OutputGrammar.segment_container_merge h.bare]
      exact h.segments_container hs hafter

theorem leafShape_segment (g : RegionGrammar) (o : OutputGrammar) (s : LeafShape) :
    g.leafShape (o.segment g.between (.leaf s)) = s := by
  by_cases hkind : s.kind = g.between
  · rw [OutputGrammar.segment_bare o hkind]
    show LeafShape.mk g.between s.content = s
    rw [← hkind]
  · rw [OutputGrammar.segment_leaf o hkind]
    rfl

/-- Reading the inside of a container gives its children back, merged. -/
theorem leaves_write (h : g.Undoes o isPlain herald) {leaves : List LeafShape}
    (hleaves : ∀ s ∈ leaves, s.IsPlain isPlain) :
    g.leaves (LeafShape.write o leaves) = LeafShape.merge g.between leaves := by
  have hshapes : ∀ s ∈ leaves.map Shape.leaf, s.IsPlain isPlain := by
    intro s hs
    obtain ⟨l, hl, rfl⟩ := List.mem_map.1 hs
    exact hleaves l hl
  unfold RegionGrammar.leaves
  rw [← Shape.write_map_leaf, h.segments_write hshapes, Shape.merge_map_leaf, List.map_map,
    List.map_map]
  exact (List.map_congr_left fun s _ => leafShape_segment g o s).trans (List.map_id _)

theorem shape_segment_leaf (g : RegionGrammar) (o : OutputGrammar) (s : LeafShape) :
    g.shape (o.segment g.between (.leaf s)) = .leaf s := by
  by_cases hkind : s.kind = g.between
  · rw [OutputGrammar.segment_bare o hkind]
    show Shape.leaf ⟨g.between, s.content⟩ = .leaf s
    rw [← hkind]
  · rw [OutputGrammar.segment_leaf o hkind]
    rfl

theorem shape_segment_container (h : g.Undoes o isPlain herald) {heading : Heading}
    {children : List LeafShape} (hs : (Shape.container heading children).IsPlain isPlain) :
    g.shape (o.segment g.between (.container heading children)) =
      .container heading (LeafShape.merge g.between children) := by
  obtain ⟨hheading, hchildren⟩ := hs
  cases heading with
  | collapsible title => exact congrArg (Shape.container _) (h.leaves_write hchildren)
  | input grade =>
    obtain rfl : grade = .unattempted := hheading
    exact congrArg (Shape.container _) (h.leaves_write hchildren)

/-- Reading what was written gives the areas back, merged. -/
theorem read_write (h : g.Undoes o isPlain herald) {shapes : List Shape}
    (hshapes : ∀ s ∈ shapes, s.IsPlain isPlain) :
    g.read (Shape.write o shapes) = Shape.merge g.between shapes := by
  unfold read
  rw [h.segments_write hshapes, List.map_map]
  refine (List.map_congr_left ?_).trans (List.map_id _)
  intro x hx
  rcases Shape.eq_leaf_or_container_of_mem_merge hx with ⟨s, rfl⟩ | ⟨heading, children, hmem, rfl⟩
  · exact shape_segment_leaf g o s
  · show g.shape (o.segment g.between _) = _
    rw [OutputGrammar.segment_container_merge h.bare]
    exact h.shape_segment_container (hshapes _ hmem)

end RegionGrammar.Undoes

end Worksheet
