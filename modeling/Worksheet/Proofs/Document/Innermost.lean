import Mathlib.Algebra.Order.BigOperators.Group.List
import Mathlib.Algebra.Order.Ring.Nat
import Mathlib.Data.List.Pairwise
import Worksheet.Dialect
import Worksheet.Proofs.Document.Lookup

/-! # The innermost area at a position

  A lookup takes the first area at the top level that contains the position, and looks no further
  than the children of that one. It misses no leaf, for in the canonical grammars containers have
  delimiters that are not empty. So the range of a container does not touch those of its
  neighbours (`Document.HasBounds.apart`): where a container contains a position, no other area at
  the top level does (`Document.HasBounds.eq_of_contains`). Leaves may touch, and of two that do
  the first one is found, or the one that begins there.
-/

namespace Worksheet

/-! ### Delimiters of containers -/

/-- Whatever their headings, containers begin and end with something. -/
def OutputGrammar.MarksContainers (g : OutputGrammar) : Prop :=
  ∀ heading, (g.ofHeading heading).opening ≠ [] ∧ (g.ofHeading heading).closing ≠ []

theorem substituteTitle_ne_nil {title s : Text} (htitle : title ≠ []) (hs : s ≠ []) :
    substituteTitle title s ≠ [] := by
  unfold substituteTitle
  split
  · intro h
    exact htitle (List.append_eq_nil_iff.1 h).1
  · exact List.cons_ne_nil _ _
  · exact absurd rfl hs

/-- It is enough to look at the delimiters in the grammar: no title makes them empty. -/
theorem OutputGrammar.marksContainers {g : OutputGrammar}
    (hcollapsible : g.collapsible.opening ≠ [] ∧ g.collapsible.closing ≠ [])
    (htitled : g.titled.opening ≠ [] ∧ g.titled.closing ≠ [])
    (hinput : g.input.opening ≠ [] ∧ g.input.closing ≠ []) : g.MarksContainers := by
  intro heading
  cases heading with
  | input grade => exact hinput
  | collapsible title =>
    show (g.ofTitle title).opening ≠ [] ∧ (g.ofTitle title).closing ≠ []
    unfold ofTitle
    split
    · exact hcollapsible
    · next htitle => exact ⟨substituteTitle_ne_nil htitle htitled.1, htitled.2⟩

theorem Dialect.marksContainers (dialect : Dialect) : dialect.grammar.MarksContainers := by
  cases dialect <;>
    exact OutputGrammar.marksContainers (by decide) (by decide) (by decide)

/-! ### Ranges that do not touch -/

theorem Rendered.size_take_le (pieces : List Rendered) {m n : Nat} (h : m ≤ n) :
    size (pieces.take m) ≤ size (pieces.take n) :=
  ((List.take_sublist_take_left h).map _).sum_le_sum fun _ _ => Nat.zero_le _

/-- Between two ranges of a layout stands all that is written around the two pieces there. -/
theorem LaidOut.stop_add_le {source : Text} {start : Nat} {pieces : List Rendered}
    {ranges : List Range} (h : LaidOut source start pieces ranges) {i j : Nat} (hij : i < j)
    {p q : Rendered} {r t : Range} (hp : pieces[i]? = some p) (hr : ranges[i]? = some r)
    (hq : pieces[j]? = some q) (ht : ranges[j]? = some t) :
    r.span.stop + p.closing.utf8Length + q.opening.utf8Length ≤ t.span.start := by
  have hstop := h.span_stop i p r hp hr
  have hstart := h.span_start j q t hq ht
  have hsize := Rendered.size_take_le pieces (Nat.succ_le_of_lt hij)
  rw [Nat.succ_eq_add_one] at hsize
  omega

theorem Text.utf8Length_pos {s : Text} (h : s ≠ []) : 0 < s.utf8Length := by
  cases s with
  | nil => exact absurd rfl h
  | cons c s =>
    have := c.utf8Size_pos
    rw [utf8Length_cons]
    omega

/-- Where there are ranges, the first ends before the second begins, and they do not touch. -/
def Range.Apart (r t : Option Range) : Prop := ∀ x ∈ r, ∀ y ∈ t, x.stop < y.start

/-- Pieces with something written between them have ranges that do not touch. -/
theorem LaidOut.lt_start {source : Text} {start : Nat} {pieces : List Rendered}
    {ranges : List Range} (h : LaidOut source start pieces ranges) {i j : Nat} (hij : i < j)
    {p q : Rendered} {r t : Range} (hp : pieces[i]? = some p) (hr : ranges[i]? = some r)
    (hq : pieces[j]? = some q) (ht : ranges[j]? = some t)
    (hbetween : p.closing ≠ [] ∨ q.opening ≠ []) : r.stop < t.start := by
  have hle := h.stop_add_le hij hp hr hq ht
  have hlt : r.span.stop < t.span.start := by
    rcases hbetween with hne | hne
    · have := Text.utf8Length_pos hne
      omega
    · have := Text.utf8Length_pos hne
      omega
  have hend : t.span.start ≤ source.utf8Length := by
    obtain ⟨before, after, hsource, hstart, -⟩ :=
      Text.eq_append_of_slice? (h.slice_eq j q t hq ht)
    rw [hsource, hstart]
    simp only [Text.utf8Length_append]
    omega
  exact Text.positionAt?_lt
    (Text.positionAt?_of_rangeOf? (h.position_eq r (List.mem_of_getElem? hr))).2
    (Text.positionAt?_of_rangeOf? (h.position_eq t (List.mem_of_getElem? ht))).1 hlt hend

/-! ### An area and its children -/

/-- What is inside an area has its range inside that of the area. -/
theorem Area.Placed.within {source : Text} {a : Area} {r : Range} (h : a.Placed source r)
    {e : Entry} (he : e ∈ a.entries) :
    ∃ t, e.range = some t ∧ r.start ≤ t.start ∧ t.stop ≤ r.stop := by
  cases a with
  | leaf l =>
    obtain rfl := List.mem_singleton.1 he
    exact ⟨r, h.range_eq, le_refl _, le_refl _⟩
  | container c =>
    rcases List.mem_cons.1 he with rfl | he
    · exact ⟨r, h.range_eq, le_refl _, le_refl _⟩
    · obtain ⟨l, hl, rfl⟩ := List.mem_map.1 he
      obtain ⟨t, ht, -, hstart, hstop⟩ := h.children l hl
      exact ⟨t, ht, hstart, hstop⟩

theorem Area.isContainer_container (c : Container) : (container c).isContainer = true := by
  obtain ⟨id, heading, children, range⟩ := c
  cases heading <;> rfl

theorem Area.marked_of_isContainer {g : OutputGrammar} (hmarks : g.MarksContainers) {a : Area}
    (ha : a.isContainer = true) : (a.render g).opening ≠ [] ∧ (a.render g).closing ≠ [] := by
  cases a with
  | leaf l =>
    obtain ⟨id, kind, content, range⟩ := l
    cases kind <;> exact nomatch ha
  | container c => exact hmarks c.heading

namespace Entry

/-- Whether the area is a leaf. -/
def isLeaf (e : Entry) : Bool := !e.kind.isContainer

/-- Whether the range of the area contains the position, with both ends. -/
def contains (p : Position) (e : Entry) : Bool := e.range.any (Range.contains · p)

/-- Whether the area holds the character at the position. -/
def holds (p : Position) (e : Entry) : Bool := e.range.any (Range.containsHalfOpen · p)

@[simp] theorem isLeaf_top_leaf (l : Leaf) : (Entry.top (.leaf l)).isLeaf = true := by
  obtain ⟨id, kind, content, range⟩ := l
  cases kind <;> rfl

@[simp] theorem isLeaf_top_container (c : Container) :
    (Entry.top (.container c)).isLeaf = false :=
  congrArg not (Area.isContainer_container c)

@[simp] theorem isLeaf_child (c : Container) (l : Leaf) : (Entry.child c l).isLeaf = true := by
  obtain ⟨id, kind, content, range⟩ := l
  cases kind <;> rfl

theorem isLeaf_eq_true_iff {e : Entry} : e.isLeaf = true ↔ e.kind.isContainer = false := by
  simp [isLeaf]

end Entry

/-- The only container among an area and its children is the area itself. -/
theorem Area.eq_top_of_mem_entries {a : Area} {e : Entry} (he : e ∈ a.entries)
    (hleaf : e.isLeaf = false) : e = .top a ∧ a.isContainer = true := by
  cases a with
  | leaf l =>
    obtain rfl := List.mem_singleton.1 he
    rw [Entry.isLeaf_top_leaf] at hleaf
    exact nomatch hleaf
  | container c =>
    rcases List.mem_cons.1 he with rfl | he
    · exact ⟨rfl, isContainer_container c⟩
    · obtain ⟨l, -, rfl⟩ := List.mem_map.1 he
      rw [Entry.isLeaf_child] at hleaf
      exact nomatch hleaf

namespace Document

variable {d : Document} {p : Position}

/-! ### Containers at the top level -/

/-- A container does not touch any other area at the top level. -/
theorem HasBounds.apart (h : d.HasBounds) (hmarks : d.grammar.MarksContainers) :
    d.areas.Pairwise fun a b =>
      a.isContainer = true ∨ b.isContainer = true → Range.Apart a.range b.range := by
  obtain ⟨table, hlaid, hcarries, -⟩ := h.laidOut
  have hlength : d.areas.length = table.length := hcarries.length_eq
  have hpiece : ∀ (k : Nat) (hk : k < d.areas.length),
      (d.areas.map (Area.render d.grammar))[k]? = some (d.areas[k].render d.grammar) := by
    intro k hk
    rw [List.getElem?_map, List.getElem?_eq_getElem hk]
    rfl
  have hrange : ∀ (k : Nat) (hk : k < d.areas.length), ∀ x ∈ d.areas[k].range,
      (table.map Bounds.range)[k]? = some x := by
    intro k hk x hx
    have hcarried := ((List.forall₂_iff_get.1 hcarries).2 k hk (hlength ▸ hk)).1
    rw [List.getElem?_map, List.getElem?_eq_getElem (hlength ▸ hk)]
    exact hcarried.symm.trans hx
  rw [List.pairwise_iff_getElem]
  intro i j hi hj hij hcontainer x hx y hy
  -- the delimiter of the container on the side of the other area stands between the two
  refine hlaid.lt_start hij (hpiece i hi) (hrange i hi x hx) (hpiece j hj) (hrange j hj y hy) ?_
  rcases hcontainer with ha | hb
  · exact .inl (Area.marked_of_isContainer hmarks ha).2
  · exact .inr (Area.marked_of_isContainer hmarks hb).1

/-- Two areas at the top level, one of them a container, do not both contain a position. -/
theorem HasBounds.pairwise_not_contains (h : d.HasBounds) (hmarks : d.grammar.MarksContainers)
    (p : Position) : d.areas.Pairwise fun a b => a.isContainer = true ∨ b.isContainer = true →
      a.range.any (Range.contains · p) = true → b.range.any (Range.contains · p) = true →
        False := by
  refine (h.apart hmarks).imp ?_
  intro a b hapart hcontainer ha hb
  obtain ⟨x, hx, hxp⟩ := (Option.any_eq_true _ _).1 ha
  obtain ⟨y, hy, hyp⟩ := (Option.any_eq_true _ _).1 hb
  have hlt := hapart hcontainer x hx y hy
  have hle := le_trans (Range.contains_iff.1 hyp).1 (Range.contains_iff.1 hxp).2
  exact absurd hlt (not_lt_of_ge hle)

/-- Where a container contains a position, no other area at the top level contains it. -/
theorem HasBounds.eq_of_contains (h : d.HasBounds) (hmarks : d.grammar.MarksContainers)
    {a b : Area} (ha : a ∈ d.areas) (hb : b ∈ d.areas) (hcontainer : b.isContainer = true)
    (hap : a.range.any (Range.contains · p) = true)
    (hbp : b.range.any (Range.contains · p) = true) : a = b := by
  have hpairs := List.pairwise_iff_getElem.1 (h.pairwise_not_contains hmarks p)
  obtain ⟨i, hi, rfl⟩ := List.mem_iff_getElem.1 ha
  obtain ⟨j, hj, rfl⟩ := List.mem_iff_getElem.1 hb
  rcases Nat.lt_trichotomy i j with hlt | rfl | hgt
  · exact (hpairs i j hi hj hlt (.inr hcontainer) hap hbp).elim
  · rfl
  · exact (hpairs j i hj hi hgt (.inl hcontainer) hbp hap).elim

/-! ### From the areas at the top level to all areas -/

theorem HasBounds.contains_of_mem_entries (h : d.HasBounds) {a : Area} (ha : a ∈ d.areas)
    {e : Entry} (he : e ∈ a.entries) (hp : e.contains p = true) :
    a.range.any (Range.contains · p) = true := by
  obtain ⟨r, hr⟩ := h.placed ha
  obtain ⟨t, ht, hstart, hstop⟩ := hr.within he
  unfold Entry.contains at hp
  rw [ht] at hp
  have hends := Range.contains_iff.1 hp
  rw [hr.range_eq]
  exact Range.contains_iff.2 ⟨le_trans hstart hends.1, le_trans hends.2 hstop⟩

theorem HasBounds.holds_of_mem_entries (h : d.HasBounds) {a : Area} (ha : a ∈ d.areas)
    {e : Entry} (he : e ∈ a.entries) (hp : e.holds p = true) :
    a.range.any (Range.containsHalfOpen · p) = true := by
  obtain ⟨r, hr⟩ := h.placed ha
  obtain ⟨t, ht, hstart, hstop⟩ := hr.within he
  unfold Entry.holds at hp
  rw [ht] at hp
  have hends := Range.containsHalfOpen_iff.1 hp
  rw [hr.range_eq]
  exact Range.containsHalfOpen_iff.2 ⟨le_trans hstart hends.1, lt_of_lt_of_le hends.2 hstop⟩

/-- At most one of the elements has a property that no two of them have together. -/
theorem countP_le_one_of_pairwise {α : Type} {P : α → Bool} {xs : List α}
    (h : xs.Pairwise fun x y => P x = true → P y = true → False) : xs.countP P ≤ 1 := by
  induction h with
  | nil => exact Nat.zero_le 1
  | @cons x xs hx _ ih =>
    by_cases hP : P x = true
    · have hzero : xs.countP P = 0 := List.countP_eq_zero.2 fun y hy hPy => hx y hy hP hPy
      rw [List.countP_cons_of_pos hP, hzero]
    · rw [List.countP_cons_of_neg hP]
      exact ih

/-- A container that contains a position is the only one that does. -/
theorem HasBounds.eq_of_contains_container (h : d.HasBounds)
    (hmarks : d.grammar.MarksContainers) {e f : Entry} (he : e ∈ d.entries) (hf : f ∈ d.entries)
    (hleaf : e.isLeaf = false) (hleaf' : f.isLeaf = false) (hep : e.contains p = true)
    (hfp : f.contains p = true) : e = f := by
  obtain ⟨a, ha, he⟩ := mem_entries.1 he
  obtain ⟨b, hb, hf⟩ := mem_entries.1 hf
  obtain ⟨rfl, -⟩ := Area.eq_top_of_mem_entries he hleaf
  obtain ⟨rfl, hcontainer⟩ := Area.eq_top_of_mem_entries hf hleaf'
  rw [h.eq_of_contains hmarks ha hb hcontainer hep hfp]

/-- At most one container contains a position. -/
theorem HasBounds.countP_container_le_one (h : d.HasBounds) (hmarks : d.grammar.MarksContainers)
    (p : Position) : d.entries.countP (fun e => !e.isLeaf && e.contains p) ≤ 1 := by
  apply countP_le_one_of_pairwise
  refine List.pairwise_flatMap.2 ⟨?_, ?_⟩
  · -- inside a container there are leaves only
    intro a _
    cases a with
    | leaf l => exact List.pairwise_singleton _ _
    | container c =>
      refine List.pairwise_cons.2 ⟨?_, List.pairwise_map.2 (List.pairwise_of_forall ?_)⟩
      · intro e he _ hpe
        obtain ⟨l, -, rfl⟩ := List.mem_map.1 he
        simp at hpe
      · intro l m hpl
        simp at hpl
  · refine (h.pairwise_not_contains hmarks p).imp_of_mem ?_
    intro a b ha hb hpair e he f hf hpe hpf
    rw [Bool.and_eq_true, Bool.not_eq_true'] at hpe hpf
    exact hpair (.inl (Area.eq_top_of_mem_entries he hpe.1).2)
      (h.contains_of_mem_entries ha he hpe.2) (h.contains_of_mem_entries hb hf hpf.2)

/-- At most one leaf holds a character. -/
theorem HasBounds.countP_leaf_le_one (h : d.HasBounds) (p : Position) :
    d.entries.countP (fun e => e.isLeaf && e.holds p) ≤ 1 := by
  apply countP_le_one_of_pairwise
  refine List.pairwise_flatMap.2 ⟨?_, ?_⟩
  · intro a ha
    obtain ⟨r, hr⟩ := h.placed ha
    cases a with
    | leaf l => exact List.pairwise_singleton _ _
    | container c =>
      refine List.pairwise_cons.2 ⟨?_, List.pairwise_map.2 ?_⟩
      · intro e _ hpc
        simp at hpc
      · refine (List.pairwise_map.1 hr.ordered).imp ?_
        intro l m hprecedes hpl hpm
        rw [Bool.and_eq_true] at hpl hpm
        exact not_containsHalfOpen_of_precedes hprecedes hpl.2 hpm.2
  · refine (List.pairwise_map.1 h.ordered).imp_of_mem ?_
    intro a b ha hb hprecedes e he f hf hpe hpf
    rw [Bool.and_eq_true] at hpe hpf
    exact not_containsHalfOpen_of_precedes hprecedes (h.holds_of_mem_entries ha he hpe.2)
      (h.holds_of_mem_entries hb hf hpf.2)

/-! ### What is found -/

/-- Areas that do not contain the position are passed over with all that is inside them. -/
theorem HasBounds.find?_entries (h : d.HasBounds) {before after : List Area} {a : Area}
    (hsplit : d.areas = before ++ a :: after)
    (hbefore : ∀ b ∈ before, ¬ b.range.any (Range.contains · p) = true) {P : Entry → Bool}
    (hP : ∀ e, P e = true → e.contains p = true) :
    d.entries.find? P = (a.entries.find? P).or ((after.flatMap Area.entries).find? P) := by
  have hnone : (before.flatMap Area.entries).find? P = none := by
    refine List.find?_eq_none.2 fun e he hp => ?_
    obtain ⟨b, hb, he⟩ := List.mem_flatMap.1 he
    have hmem : b ∈ d.areas := hsplit ▸ List.mem_append_left _ hb
    exact hbefore b hb (h.contains_of_mem_entries hmem he (hP e hp))
  unfold entries
  rw [hsplit, List.flatMap_append, List.flatMap_cons, List.find?_append, hnone, Option.none_or,
    List.find?_append]

/-- Behind a container that contains the position, nothing contains it. -/
theorem HasBounds.find?_behind_container (h : d.HasBounds) (hmarks : d.grammar.MarksContainers)
    {before after : List Area} {a : Area} (hsplit : d.areas = before ++ a :: after)
    (hcontainer : a.isContainer = true) (hap : a.range.any (Range.contains · p) = true)
    {P : Entry → Bool} (hP : ∀ e, P e = true → e.contains p = true) :
    (after.flatMap Area.entries).find? P = none := by
  have hpairs := h.pairwise_not_contains hmarks p
  rw [hsplit] at hpairs
  refine List.find?_eq_none.2 fun e he hp => ?_
  obtain ⟨b, hb, he⟩ := List.mem_flatMap.1 he
  have hmem : b ∈ d.areas := hsplit ▸ List.mem_append_right _ (List.mem_cons_of_mem a hb)
  exact (List.pairwise_cons.1 (List.pairwise_append.1 hpairs).2.1).1 b hb (.inl hcontainer) hap
    (h.contains_of_mem_entries hmem he (hP e hp))

theorem childAt?_contains (p : Position) (leaves : List Leaf) :
    childAt? p Range.contains leaves = leaves.find? fun l => l.range.any (Range.contains · p) := by
  unfold childAt?
  dsimp only
  rw [Option.orElse_eq_orElse, Option.orElse_eq_or, Option.or_self]

/-- Where no child holds the character, the child at the position is one that contains it. -/
theorem childAt?_containsHalfOpen {leaves : List Leaf}
    (h : ∀ l ∈ leaves, ¬ l.range.any (Range.containsHalfOpen · p) = true) :
    childAt? p Range.containsHalfOpen leaves = childAt? p Range.contains leaves := by
  rw [childAt?_contains]
  unfold childAt?
  dsimp only
  rw [List.find?_eq_none.2 h]
  rfl

/-- The first leaf in a container that contains the position is the child found there. -/
theorem find?_leaf_entries (c : Container) (p : Position) :
    (Area.container c).entries.find? (fun e => e.isLeaf && e.contains p) =
      (childAt? p Range.contains c.children).map (.child c) := by
  show List.find? _ (Entry.top (.container c) :: c.children.map (Entry.child c)) = _
  rw [List.find?_cons_of_neg (by simp), List.find?_map, childAt?_contains]
  congr 2
  funext l
  simp [Entry.contains, Entry.range]

/-- The first leaf that contains a position is found there, or else the container. -/
theorem HasBounds.areaAt?_eq (h : d.HasBounds) (hmarks : d.grammar.MarksContainers)
    (p : Position) : d.areaAt? p = (d.entries.find? fun e => e.isLeaf && e.contains p).or
      (d.entries.find? fun e => !e.isLeaf && e.contains p) := by
  have hleaf : ∀ e : Entry, (e.isLeaf && e.contains p) = true → e.contains p = true :=
    fun e he => (Bool.and_eq_true_iff.1 he).2
  have hother : ∀ e : Entry, (!e.isLeaf && e.contains p) = true → e.contains p = true :=
    fun e he => (Bool.and_eq_true_iff.1 he).2
  unfold areaAt? locate?
  cases hfound : d.areas.find? fun a => a.range.any (Range.contains · p) with
  | none =>
    have hnone : ∀ e ∈ d.entries, ¬ e.contains p = true := by
      intro e he hp
      obtain ⟨a, ha, he⟩ := mem_entries.1 he
      exact List.find?_eq_none.1 hfound a ha (h.contains_of_mem_entries ha he hp)
    rw [List.find?_eq_none.2 fun e he hp => hnone e he (hleaf e hp),
      List.find?_eq_none.2 fun e he hp => hnone e he (hother e hp)]
    rfl
  | some a =>
    obtain ⟨hap, before, after, hsplit, hbefore⟩ := List.find?_eq_some_iff_append.1 hfound
    have hbefore : ∀ b ∈ before, ¬ b.range.any (Range.contains · p) = true := by
      intro b hb
      simpa using hbefore b hb
    rw [h.find?_entries hsplit hbefore hleaf, h.find?_entries hsplit hbefore hother]
    cases a with
    | leaf l =>
      have hl : (Entry.top (.leaf l)).contains p = true := hap
      have hself : (Area.leaf l).entries.find? (fun e => e.isLeaf && e.contains p) =
          some (.top (.leaf l)) := List.find?_cons_of_pos (by rw [Entry.isLeaf_top_leaf, hl]; rfl)
      rw [hself]
      rfl
    | container c =>
      have hc : (Entry.top (.container c)).contains p = true := hap
      have hself : (Area.container c).entries.find? (fun e => !e.isLeaf && e.contains p) =
          some (.top (.container c)) :=
        List.find?_cons_of_pos (by rw [Entry.isLeaf_top_container, hc]; rfl)
      rw [h.find?_behind_container hmarks hsplit (Area.isContainer_container c) hap hleaf, hself,
        find?_leaf_entries, Option.or_none, Option.map_some]
      dsimp only
      cases childAt? p Range.contains c.children <;> rfl

/-- Where no leaf contains the position, what does is found. -/
theorem HasBounds.areaAt?_of_contains (h : d.HasBounds) (hmarks : d.grammar.MarksContainers)
    (hnone : ∀ e ∈ d.entries, e.isLeaf = true → e.contains p = false) {e : Entry}
    (he : e ∈ d.entries) (hp : e.contains p = true) : d.areaAt? p = some e := by
  have hother : ∀ f ∈ d.entries, f.contains p = true → f.isLeaf = false := by
    intro f hf hfp
    cases hleaf : f.isLeaf with
    | false => rfl
    | true => exact nomatch (hnone f hf hleaf).symm.trans hfp
  have hleaf : d.entries.find? (fun f => f.isLeaf && f.contains p) = none := by
    refine List.find?_eq_none.2 fun f hf hfp => ?_
    rw [Bool.and_eq_true] at hfp
    exact nomatch (hother f hf hfp.2).symm.trans hfp.1
  have hcontainer : d.entries.find? (fun f => !f.isLeaf && f.contains p) = some e := by
    refine find?_of_unique he (by rw [hother e he hp, hp]; rfl) ?_
    intro f hf hfp
    rw [Bool.and_eq_true, Bool.not_eq_true'] at hfp
    exact h.eq_of_contains_container hmarks hf he hfp.1 (hother e he hp) hfp.2 hp
  rw [h.areaAt?_eq hmarks, hleaf, hcontainer]
  rfl

/-- Nothing is found for a position that is in no range, and for no other. -/
theorem HasBounds.areaAt?_eq_none_iff (h : d.HasBounds) (hmarks : d.grammar.MarksContainers) :
    d.areaAt? p = none ↔ ∀ e ∈ d.entries, e.contains p = false := by
  rw [h.areaAt?_eq hmarks, Option.or_eq_none_iff, List.find?_eq_none, List.find?_eq_none]
  constructor
  · rintro ⟨hleaf, hother⟩ e he
    by_contra hp
    rw [Bool.not_eq_false] at hp
    cases hkind : e.isLeaf with
    | true => exact hleaf e he (by rw [hkind, hp]; rfl)
    | false => exact hother e he (by rw [hkind, hp]; rfl)
  · intro hnone
    constructor <;> intro e he <;> simp [hnone e he]

/-- Where no leaf holds the character, what is found for it is found for the position. -/
theorem HasBounds.areaAt?_of_locate? (h : d.HasBounds) (hmarks : d.grammar.MarksContainers)
    (hnone : ∀ e ∈ d.entries, e.isLeaf = true → e.holds p = false) {e : Entry}
    (he : d.locate? p Range.containsHalfOpen = some e) : d.areaAt? p = some e := by
  obtain ⟨a, hfound, he⟩ := Option.map_eq_some_iff.1 he
  have ha := List.mem_of_find?_eq_some hfound
  have hholds := List.find?_some hfound
  cases a with
  | leaf l =>
    -- it would hold the character
    have hl := hnone _ (mem_entries.2 ⟨_, ha, List.mem_singleton_self _⟩)
      (Entry.isLeaf_top_leaf l)
    exact absurd hholds (Bool.not_eq_true _ ▸ hl)
  | container c =>
    have hcontains : (Area.container c).range.any (Range.contains · p) = true := by
      obtain ⟨r, hr, hp⟩ := (Option.any_eq_true _ _).1 hholds
      have hends := Range.containsHalfOpen_iff.1 hp
      exact (Option.any_eq_true _ _).2 ⟨r, hr, Range.contains_iff.2 ⟨hends.1, le_of_lt hends.2⟩⟩
    have hchildren : ∀ l ∈ c.children, ¬ l.range.any (Range.containsHalfOpen · p) = true := by
      intro l hl hp
      have hmem : Entry.child c l ∈ (Area.container c).entries :=
        List.mem_cons_of_mem _ (List.mem_map_of_mem hl)
      have hc := hnone _ (mem_entries.2 ⟨_, ha, hmem⟩) (Entry.isLeaf_child c l)
      exact absurd hp (Bool.not_eq_true _ ▸ hc)
    -- both lookups go into this container, for no other area contains the position
    have hsame : d.areas.find? (fun a => a.range.any (Range.contains · p)) =
        some (.container c) :=
      find?_of_unique ha hcontains fun b hb hbp =>
        h.eq_of_contains hmarks hb ha (Area.isContainer_container c) hbp hcontains
    unfold areaAt? locate?
    rw [hsame, Option.map_some, ← he]
    dsimp only
    rw [childAt?_containsHalfOpen hchildren]

/-! ### The innermost area -/

/-- What lookups find at a position. -/
structure FindsInnermost (d : Document) (p : Position) : Prop where
  /-- Nothing is found if and only if the position is in no range. -/
  areaAt?_eq_none : d.areaAt? p = none ↔ ∀ e ∈ d.entries, e.contains p = false
  /-- The first of the leaves that contain the position is found. -/
  areaAt?_leaf : ∀ e, (d.entries.find? fun e => e.isLeaf && e.contains p) = some e →
    d.areaAt? p = some e
  /-- Where no leaf contains it, the container that does is found. -/
  areaAt?_container : (∀ e ∈ d.entries, e.isLeaf = true → e.contains p = false) →
    ∀ e ∈ d.entries, e.contains p = true → d.areaAt? p = some e
  /-- There is only one such container. -/
  container_le_one : d.entries.countP (fun e => !e.isLeaf && e.contains p) ≤ 1
  /-- Only one leaf holds the character at the position. -/
  leaf_le_one : d.entries.countP (fun e => e.isLeaf && e.holds p) ≤ 1
  /-- It is the area that starts there. -/
  areaStartingAt?_leaf : ∀ e ∈ d.entries, e.isLeaf = true → e.holds p = true →
    d.areaStartingAt? p = some e
  /-- Where there is none, ends count. -/
  areaStartingAt?_eq : (∀ e ∈ d.entries, e.isLeaf = true → e.holds p = false) →
    d.areaStartingAt? p = d.areaAt? p

/-- In a document of a dialect whose ranges have been found, lookups find the innermost area at
    every position, also where the text has no such position. -/
theorem findsInnermost {d : Document} (dialect : Dialect) (hgrammar : d.grammar = dialect.grammar)
    (hbounds : d.HasBounds) (p : Position) : d.FindsInnermost p := by
  have hmarks : d.grammar.MarksContainers := hgrammar ▸ dialect.marksContainers
  constructor
  case areaAt?_eq_none => exact hbounds.areaAt?_eq_none_iff hmarks
  case areaAt?_leaf =>
    intro e he
    rw [hbounds.areaAt?_eq hmarks, he]
    rfl
  case areaAt?_container =>
    intro hnone e he hp
    exact hbounds.areaAt?_of_contains hmarks hnone he hp
  case container_le_one => exact hbounds.countP_container_le_one hmarks p
  case leaf_le_one => exact hbounds.countP_leaf_le_one p
  case areaStartingAt?_leaf =>
    intro e he hleaf hholds
    obtain ⟨r, hr, hp⟩ := (Option.any_eq_true _ _).1 hholds
    unfold areaStartingAt?
    rw [hbounds.locate?_of_mem he (Entry.isLeaf_eq_true_iff.1 hleaf) hr hp]
    rfl
  case areaStartingAt?_eq =>
    intro hnone
    unfold areaStartingAt?
    cases hfound : d.locate? p Range.containsHalfOpen with
    | none => rfl
    | some e =>
      rw [hbounds.areaAt?_of_locate? hmarks hnone hfound]
      rfl

/-- A document with a collapsible that begins with two leaves that touch, the first one empty. -/
def nested : Document :=
  (updateBounds ⟨[], [.leaf ⟨.zero, .text, ['a'], none⟩, .container ⟨⟨20, by decide⟩,
    .collapsible [], [⟨⟨21, by decide⟩, .text, [], none⟩, ⟨⟨22, by decide⟩, .text, ['b'], none⟩,
    ⟨⟨23, by decide⟩, .code, ['c'], none⟩], none⟩], Dialect.coqmd.grammar, false⟩).1

/-- The empty leaf contains the position that the other one starts at. Past the end of a line, as
    anywhere between the leaves, there is the container. -/
theorem findsInnermost_nested :
    (∀ p, nested.FindsInnermost p) ∧
      (nested.areaAt? ⟨0, 7⟩).map (AreaId.val ∘ Entry.id) = some 21 ∧
      (nested.areaStartingAt? ⟨0, 7⟩).map (AreaId.val ∘ Entry.id) = some 22 ∧
      (nested.areaStartingAt? ⟨2, 90⟩).map (AreaId.val ∘ Entry.id) = some 20 ∧
      nested.areaStartingAt? ⟨0, 3⟩ = none :=
  ⟨findsInnermost .coqmd rfl (hasBounds_updateBounds _), by decide +kernel⟩

end Document

end Worksheet
