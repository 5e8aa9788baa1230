import Mathlib.Data.List.Nodup
import Mathlib.Data.Option.Basic
import Worksheet.Proofs.Document.Ranges
import Worksheet.Proofs.Text.Location

/-! # Looking up areas

  The ranges on a document are the places of its areas in the written text, in their order and one
  inside the other (`Document.HasBounds.placed`, `Document.HasBounds.ordered`). So at most one area
  at the top level holds a character, at most one child of it does, and a lookup by position cannot
  miss a leaf. The offset of a position into a leaf is its offset in the written text, counted
  from where the leaf begins (`Range.IsPlaceOf.offsetIn?_eq`).
-/

namespace Worksheet

/-! ### The ends of a range -/

namespace Text

theorem positionAt?_of_rangeOf? {s : Text} {r : Range} (h : s.rangeOf? r.span = some r) :
    s.positionAt? r.span.start = some r.start ∧ s.positionAt? r.span.stop = some r.stop := by
  obtain ⟨start, hstart, h⟩ := Option.bind_eq_some_iff.1 h
  obtain ⟨stop, hstop, h⟩ := Option.bind_eq_some_iff.1 h
  have hr : ⟨r.span, start, stop⟩ = r := Option.some.inj h
  rw [← congrArg Range.start hr, ← congrArg Range.stop hr]
  exact ⟨hstart, hstop⟩

end Text

/-! ### The place of a content -/

/-- A range is the place of a content in a text: its span cuts the content out, and its ends are the
    positions of the ends of the span. -/
structure Range.IsPlaceOf (r : Range) (source content : Text) : Prop where
  slice_eq : source.slice? r.span.start r.span.stop = some content
  position_eq : source.rangeOf? r.span = some r

namespace Range.IsPlaceOf

variable {r : Range} {source content : Text}

/-- Around the place of a content, the text falls into what is before it and what is behind it. -/
theorem exists_append (h : r.IsPlaceOf source content) :
    ∃ before after, source = before ++ content ++ after ∧
      r = ⟨⟨before.utf8Length, (before ++ content).utf8Length⟩, Position.zero.advance before,
        Position.zero.advance (before ++ content)⟩ := by
  obtain ⟨before, after, hsource, hstart, hstop⟩ := Text.eq_append_of_slice? h.slice_eq
  refine ⟨before, after, hsource, ?_⟩
  have hposition := h.position_eq
  have hspan : r.span = ⟨before.utf8Length, (before ++ content).utf8Length⟩ :=
    congrArg₂ Span.mk hstart hstop
  rw [hsource, hspan, Text.rangeOf?_append] at hposition
  exact (Option.some.inj hposition).symm

theorem span_stop (h : r.IsPlaceOf source content) :
    r.span.stop = r.span.start + content.utf8Length := by
  obtain ⟨before, after, -, rfl⟩ := h.exists_append
  exact Text.utf8Length_append before content

/-- A position in the range has an offset into the content, which is its offset in the text counted
    from where the content begins. -/
theorem offsetIn?_eq (h : r.IsPlaceOf source content) {p : Position} (hp : r.contains p = true) :
    ∃ o, content.offsetIn? r p = some o ∧ source.byteAt? p = some (r.span.start + o) ∧
      content.HasSeam o := by
  obtain ⟨before, after, hsource, rfl⟩ := h.exists_append
  have hstop : p ≤ Position.zero.advance (before ++ content) := (contains_iff.1 hp).2
  obtain ⟨o, ho⟩ := Option.isSome_iff_exists.1
    (Text.isSome_offsetIn? (Position.advance_append _ before content) hp)
  obtain ⟨-, u, v, hcontent, hou, hdivides⟩ := Text.divides_of_offsetIn? ho
  refine ⟨o, ho, ?_, u, v, hcontent, hou⟩
  -- the line of the position is one of the text, for the content ends no earlier
  have hline : p.line ≤ source.count '\n' := by
    have hle := Position.le_def.1 hstop
    rw [Position.line_advance, show Position.zero.line = 0 from rfl] at hle
    rw [hsource, List.count_append]
    omega
  obtain ⟨b, hb⟩ := Option.isSome_iff_exists.1 ((Text.isSome_byteAt? source p).2 hline)
  obtain ⟨x, y, hxy, rfl, hwhole⟩ := Text.divides_of_byteAt? hb
  -- what divides the content divides the whole text, and that can be divided in one way only
  have hextended := hdivides.extend before after (by
    rw [← hcontent, ← Position.advance_append]
    exact hstop)
  have hlength := hwhole.utf8Length_eq hextended (by
    rw [← hxy, hsource, hcontent]
    simp only [List.append_assoc])
  rw [hb, hlength, Text.utf8Length_append, hou]

/-- A position at or behind the end of the range has no offset before the end of the content. -/
theorem span_stop_le (h : r.IsPlaceOf source content) {p : Position} (hp : r.stop ≤ p) {b : Nat}
    (hb : source.byteAt? p = some b) : r.span.stop ≤ b := by
  obtain ⟨before, after, hsource, rfl⟩ := h.exists_append
  obtain ⟨u, v, huv, rfl, hdivides⟩ := Text.divides_of_byteAt? hb
  exact (hdivides.advance_le_iff (huv.symm.trans hsource)).1 hp

/-- From the start of the range on, the offset into the content, or else its end, is the offset in
    the text, cut off where the content ends. -/
theorem start_add_offsetIn?_getD (h : r.IsPlaceOf source content) {p : Position}
    (hp : r.start ≤ p) {b : Nat} (hb : source.byteAt? p = some b) :
    r.span.start + (content.offsetIn? r p).getD content.utf8Length = min b r.span.stop := by
  by_cases hcontains : r.contains p = true
  · obtain ⟨o, ho, hbyte, hseam⟩ := h.offsetIn?_eq hcontains
    obtain rfl := Option.some.inj (hbyte.symm.trans hb)
    rw [ho, Option.getD_some, h.span_stop, Nat.min_eq_left (Nat.add_le_add_left hseam.le _)]
  · have hbehind : r.stop ≤ p := by
      refine le_of_lt (lt_of_not_ge fun hle => hcontains ?_)
      exact contains_iff.2 ⟨hp, hle⟩
    rw [show content.offsetIn? r p = none from if_neg hcontains, Option.getD_none,
      Nat.min_eq_right (h.span_stop_le hbehind hb), h.span_stop]

/-- A position on a line that the text does not have is not in the range. -/
theorem offsetIn?_of_byteAt?_eq_none (h : r.IsPlaceOf source content) {p : Position}
    (hp : source.byteAt? p = none) : content.offsetIn? r p = none := by
  refine if_neg fun hcontains => ?_
  obtain ⟨o, -, hbyte, -⟩ := h.offsetIn?_eq hcontains
  rw [hp] at hbyte
  exact nomatch hbyte

end Range.IsPlaceOf

/-! ### Places of areas -/

/-- Where there are ranges, the first ends before the second begins. -/
def Range.Precedes (r t : Option Range) : Prop := ∀ x ∈ r, ∀ y ∈ t, x.stop ≤ y.start

/-- Laid out pieces follow each other in positions as they do in bytes. -/
theorem LaidOut.precedes {source : Text} {start : Nat} {pieces : List Rendered}
    {ranges : List Range} (h : LaidOut source start pieces ranges) :
    (ranges.map some).Pairwise Range.Precedes := by
  rw [List.pairwise_map]
  refine h.ordered.imp_of_mem ?_
  intro r t hr ht hle x hx y hy
  obtain rfl := Option.some.inj hx
  obtain rfl := Option.some.inj hy
  exact Text.positionAt?_mono (Text.positionAt?_of_rangeOf? (h.position_eq r hr)).2
    (Text.positionAt?_of_rangeOf? (h.position_eq t ht)).1 hle

/-- An area in a text has its range there; its children have theirs inside it, one after the
    other. -/
structure Area.Placed (source : Text) (a : Area) (r : Range) : Prop where
  range_eq : a.range = some r
  leaf : ∀ l, a = .leaf l → r.IsPlaceOf source l.content
  children : ∀ l ∈ a.children, ∃ t, l.range = some t ∧ t.IsPlaceOf source l.content ∧
    r.start ≤ t.start ∧ t.stop ≤ r.stop
  ordered : (a.children.map Leaf.range).Pairwise Range.Precedes

/-- An area that carries bounds that fit it is placed by them. -/
theorem Bounds.Fits.placed {g : OutputGrammar} {source : Text} {a : Area} {b : Bounds}
    (h : b.Fits g source a) (hcarries : a.Carries b)
    (hposition : source.rangeOf? b.range.span = some b.range) : a.Placed source b.range := by
  have hranges : a.children.map Leaf.range = (b.children.map Prod.snd).map some := by
    rw [hcarries.2, List.map_map]
    rfl
  refine ⟨hcarries.1, ?_, ?_, hranges ▸ h.children_laidOut.precedes⟩
  · intro l hl
    exact ⟨h.slice_leaf l hl, hposition⟩
  · intro l hl
    obtain ⟨k, hk, rfl⟩ := List.mem_iff_getElem.1 hl
    have hlength : a.children.length = b.children.length := h.slice_child.length_eq
    have hmem : b.children[k].2 ∈ b.children.map Prod.snd :=
      List.mem_map_of_mem (List.getElem_mem _)
    have hchild := h.children_laidOut.position_eq _ hmem
    have hwithin := h.children_within _ hmem
    have hends := Text.positionAt?_of_rangeOf? hchild
    have houter := Text.positionAt?_of_rangeOf? hposition
    refine ⟨b.children[k].2, ?_, ⟨List.forall₂_iff_get.1 h.slice_child |>.2 k hk (hlength ▸ hk),
      hchild⟩, ?_, ?_⟩
    · have hat := congrArg (·[k]?) hcarries.2
      simpa [hk, hlength ▸ hk] using hat
    · exact Text.positionAt?_mono houter.1 hends.1 hwithin.1
    · exact Text.positionAt?_mono hends.2 houter.2 hwithin.2

theorem Area.map_range_of_carries {areas : List Area} {table : List Bounds}
    (h : List.Forall₂ Area.Carries areas table) :
    areas.map Area.range = (table.map Bounds.range).map some := by
  induction h with
  | nil => rfl
  | cons hab _ ih =>
    rw [List.map_cons, ih, hab.1]
    rfl

namespace Document

variable {d : Document}

/-- Ranges on a document are those of a layout of its written form. -/
theorem HasBounds.laidOut (h : d.HasBounds) :
    ∃ table : List Bounds,
      LaidOut d.write 0 (d.areas.map (Area.render d.grammar)) (table.map Bounds.range) ∧
      List.Forall₂ Area.Carries d.areas table ∧
      List.Forall₂ (Bounds.Fits d.grammar d.write) d.areas table := by
  obtain ⟨table, hbounds, hcarries⟩ := h.carries
  rw [Area.bounds_eq_ok] at hbounds
  obtain rfl := Except.ok.inj hbounds
  have hwrite : d.write = [] ++ (Rendered.write (d.areas.map (Area.render d.grammar)) ++ []) := by
    rw [List.append_nil, List.nil_append, ← Area.write_eq]
    rfl
  refine ⟨Area.layout d.grammar [] d.areas, ?_, hcarries, ?_⟩
  · rw [hwrite, Area.ranges_layout]
    exact Rendered.laidOut_ranges [] [] _
  · rw [hwrite]
    exact Area.forall₂_fits_layout d.grammar d.areas [] []

/-- Every area at the top level has its place in the written text. -/
theorem HasBounds.placed (h : d.HasBounds) {a : Area} (ha : a ∈ d.areas) :
    ∃ r, a.Placed d.write r := by
  obtain ⟨table, hlaid, hcarries, hfits⟩ := h.laidOut
  obtain ⟨k, hk, rfl⟩ := List.mem_iff_getElem.1 ha
  have hlength : d.areas.length = table.length := hcarries.length_eq
  have hposition := hlaid.position_eq table[k].range
    (List.mem_map_of_mem (List.getElem_mem (hlength ▸ hk)))
  exact ⟨_, ((List.forall₂_iff_get.1 hfits).2 k hk (hlength ▸ hk)).placed
    ((List.forall₂_iff_get.1 hcarries).2 k hk (hlength ▸ hk)) hposition⟩

/-- Areas at the top level follow each other. -/
theorem HasBounds.ordered (h : d.HasBounds) :
    (d.areas.map Area.range).Pairwise Range.Precedes := by
  obtain ⟨table, hlaid, hcarries, -⟩ := h.laidOut
  rw [Area.map_range_of_carries hcarries]
  exact hlaid.precedes

/-! ### Entries -/

theorem mem_entries {e : Entry} : e ∈ d.entries ↔ ∃ a ∈ d.areas, e ∈ a.entries :=
  List.mem_flatMap

/-- What is not a container is a leaf at the top level or inside a container. -/
theorem eq_of_mem_entries {e : Entry} (he : e ∈ d.entries) (hleaf : e.kind.isContainer = false) :
    (∃ l, .leaf l ∈ d.areas ∧ e = .top (.leaf l)) ∨
      ∃ c l, .container c ∈ d.areas ∧ l ∈ c.children ∧ e = .child c l := by
  obtain ⟨a, ha, he⟩ := mem_entries.1 he
  cases a with
  | leaf l => exact .inl ⟨l, ha, List.mem_singleton.1 he⟩
  | container c =>
    rcases List.mem_cons.1 he with rfl | he
    · -- the container itself
      cases hc : c.heading <;> simp [Entry.kind, Area.kind, hc, Heading.kind, AreaKind.isContainer]
        at hleaf
    · obtain ⟨l, hl, rfl⟩ := List.mem_map.1 he
      exact .inr ⟨c, l, ha, hl, rfl⟩

/-- Every leaf has its place in the written text. -/
theorem HasBounds.isPlaceOf (h : d.HasBounds) {e : Entry} (he : e ∈ d.entries)
    (hleaf : e.kind.isContainer = false) :
    ∃ r, e.range = some r ∧ r.IsPlaceOf d.write e.content := by
  rcases eq_of_mem_entries he hleaf with ⟨l, hl, rfl⟩ | ⟨c, l, hc, hl, rfl⟩
  · obtain ⟨r, hr⟩ := h.placed hl
    exact ⟨r, hr.range_eq, hr.leaf l rfl⟩
  · obtain ⟨r, hr⟩ := h.placed hc
    obtain ⟨t, ht, hplace, -⟩ := hr.children l hl
    exact ⟨t, ht, hplace⟩

/-- Of several elements with a property the first one is found, so the only one is. -/
theorem find?_of_unique {α : Type} {holds : α → Bool} {xs : List α} {x : α} (hx : x ∈ xs)
    (hholds : holds x = true) (hunique : ∀ y ∈ xs, holds y = true → y = x) :
    xs.find? holds = some x := by
  obtain ⟨y, hy⟩ := Option.isSome_iff_exists.1 (List.find?_isSome.2 ⟨x, hx, hholds⟩)
  rw [hy, hunique y (List.mem_of_find?_eq_some hy) (List.find?_some hy)]

/-- Where identifiers are distinct, every area is found under its own. -/
theorem find?_of_mem (hids : (d.entries.map Entry.id).Nodup) {e : Entry} (he : e ∈ d.entries) :
    d.find? e.id = some e := by
  refine find?_of_unique he (by simp) ?_
  intro f hf hid
  exact List.inj_on_of_nodup_map hids hf he (of_decide_eq_true hid)

/-! ### Lookup by position -/

/-- Of two ranges one of which precedes the other, only one holds a character. -/
theorem not_containsHalfOpen_of_precedes {r t : Option Range} (h : Range.Precedes r t)
    {p : Position} (hr : r.any (Range.containsHalfOpen · p) = true)
    (ht : t.any (Range.containsHalfOpen · p) = true) : False := by
  obtain ⟨x, hx, hxp⟩ := (Option.any_eq_true _ _).1 hr
  obtain ⟨y, hy, hyp⟩ := (Option.any_eq_true _ _).1 ht
  have hle : x.stop ≤ p := le_trans (h x hx y hy) (Range.containsHalfOpen_iff.1 hyp).1
  exact absurd hle (not_le_of_gt (Range.containsHalfOpen_iff.1 hxp).2)

/-- Among ranges that precede each other, the one that holds a character is found. -/
theorem find?_of_precedes {α : Type} {range : α → Option Range} {xs : List α}
    (h : (xs.map range).Pairwise Range.Precedes) {x : α} (hx : x ∈ xs) {p : Position}
    (hp : (range x).any (Range.containsHalfOpen · p) = true) :
    xs.find? (fun y => (range y).any (Range.containsHalfOpen · p)) = some x := by
  refine find?_of_unique hx hp ?_
  intro y hy hyp
  rw [List.pairwise_map, List.pairwise_iff_getElem] at h
  obtain ⟨i, hi, rfl⟩ := List.mem_iff_getElem.1 hx
  obtain ⟨j, hj, rfl⟩ := List.mem_iff_getElem.1 hy
  rcases Nat.lt_trichotomy i j with hlt | rfl | hgt
  · exact (not_containsHalfOpen_of_precedes (h i j hi hj hlt) hp hyp).elim
  · rfl
  · exact (not_containsHalfOpen_of_precedes (h j i hj hi hgt) hyp hp).elim

/-- The leaf that holds a character is the one that a lookup finds. -/
theorem HasBounds.locate?_of_mem (h : d.HasBounds) {e : Entry} (he : e ∈ d.entries)
    (hleaf : e.kind.isContainer = false) {r : Range} (hr : e.range = some r) {p : Position}
    (hp : r.containsHalfOpen p = true) : d.locate? p Range.containsHalfOpen = some e := by
  unfold locate?
  rcases eq_of_mem_entries he hleaf with ⟨l, hl, rfl⟩ | ⟨c, l, hc, hl, rfl⟩
  · have hholds : (Area.leaf l).range.any (Range.containsHalfOpen · p) = true := by
      rw [show (Area.leaf l).range = some r from hr]
      exact hp
    rw [find?_of_precedes h.ordered hl hholds]
    rfl
  · obtain ⟨outer, houter⟩ := h.placed hc
    obtain ⟨t, ht, -, hstart, hstop⟩ := houter.children l hl
    obtain rfl := Option.some.inj (ht.symm.trans hr)
    have hends := Range.containsHalfOpen_iff.1 hp
    -- the container holds the character because the child does
    have hholds : (Area.container c).range.any (Range.containsHalfOpen · p) = true := by
      rw [houter.range_eq]
      exact Range.containsHalfOpen_iff.2 ⟨le_trans hstart hends.1, lt_of_lt_of_le hends.2 hstop⟩
    have hchild : l.range.any (Range.containsHalfOpen · p) = true := by
      rw [ht]
      exact hp
    have hfound : childAt? p Range.containsHalfOpen c.children = some l := by
      unfold childAt?
      exact congrArg (· <|> _) (find?_of_precedes houter.ordered hl hchild)
    rw [find?_of_precedes h.ordered hc hholds]
    simp only [Option.map_some, hfound]

/-- A lookup finds areas of the document only. -/
theorem mem_entries_of_locate? {p : Position} {test : Range → Position → Bool} {e : Entry}
    (h : d.locate? p test = some e) : e ∈ d.entries := by
  obtain ⟨a, ha, he⟩ := Option.map_eq_some_iff.1 h
  refine mem_entries.2 ⟨a, List.mem_of_find?_eq_some ha, ?_⟩
  cases a with
  | leaf l => exact he ▸ List.mem_cons_self
  | container c =>
    simp only at he
    split at he
    · next l hl =>
      subst he
      refine List.mem_cons_of_mem _ (List.mem_map_of_mem ?_)
      unfold childAt? at hl
      rcases (Option.orElse_eq_some _ _ _).1 hl with hl | ⟨-, hl⟩
      · exact List.mem_of_find?_eq_some hl
      · exact List.mem_of_find?_eq_some hl
    · exact he ▸ List.mem_cons_self

theorem mem_entries_of_areaStartingAt? {p : Position} {e : Entry}
    (h : d.areaStartingAt? p = some e) : e ∈ d.entries := by
  rcases (Option.orElse_eq_some _ _ _).1 h with h | ⟨-, h⟩
  · exact mem_entries_of_locate? h
  · exact mem_entries_of_locate? h

end Document

end Worksheet
