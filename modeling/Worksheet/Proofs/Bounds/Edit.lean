import Worksheet.Proofs.Bounds.Layout

/-! # Editing a leaf

  A leaf gets other content. In the written form this is a splice: the bytes of the leaf are
  replaced, and no others. The bounds that are found anew differ from those before in a way that is
  known without a search:

  - the leaf begins where it began, and ends where its new content does;
  - of its container, if it has one, only the end moves;
  - everything else that comes earlier stays where it was;
  - everything that comes later moves, by as many bytes as the text has grown.

  It does not matter what the contents are. They may be empty, they may occur several times, and
  they may look like delimiters or like other areas.
-/

namespace Worksheet

/-! ### Splices -/

namespace Text

/-- A text with the bytes from one offset up to another replaced. -/
def splice? (s : Text) (start stop : Nat) (new : Text) : Option Text := do
  return (← s.takeBytes? start) ++ new ++ (← s.dropBytes? stop)

/-- The first text becomes the second one when `old`, which stands behind `n` bytes, is replaced
    by `new`. -/
def ReplacedAt (n : Nat) (old new s t : Text) : Prop :=
  ∃ before after, s = before ++ old ++ after ∧ t = before ++ new ++ after ∧ n = before.utf8Length

namespace ReplacedAt

variable {n m : Nat} {old new s t u v : Text}

theorem splice?_eq (h : ReplacedAt n old new s t) :
    s.splice? n (n + old.utf8Length) new = some t := by
  obtain ⟨before, after, rfl, rfl, rfl⟩ := h
  have htake : (before ++ old ++ after).takeBytes? before.utf8Length = some before := by
    rw [List.append_assoc]
    exact takeBytes?_append before _
  have hdrop := dropBytes?_append (before ++ old) after
  rw [utf8Length_append] at hdrop
  unfold splice?
  rw [htake, hdrop]
  rfl

/-- What is replaced in a part of a text is replaced in the text. -/
theorem within (h : ReplacedAt m old new s t) (hst : ReplacedAt n s t u v) :
    ReplacedAt (n + m) old new u v := by
  obtain ⟨before, after, rfl, rfl, rfl⟩ := h
  obtain ⟨outer, rest, rfl, rfl, rfl⟩ := hst
  refine ⟨outer ++ before, after ++ rest, ?_, ?_, ?_⟩
  · simp only [List.append_assoc]
  · simp only [List.append_assoc]
  · rw [utf8Length_append]

theorem utf8Length_eq (h : ReplacedAt n old new s t) :
    t.utf8Length + old.utf8Length = s.utf8Length + new.utf8Length := by
  obtain ⟨before, after, rfl, rfl, -⟩ := h
  simp only [utf8Length_append]
  omega

end ReplacedAt

end Text

/-! ### Spans that move -/

namespace Span

/-- By how many bytes a text grows when a span of it is replaced. -/
def growth (s : Span) (new : Text) : Int := new.utf8Length - ((s.stop : Int) - s.start)

/-- Both ends of a span move. -/
structure MovedBy (d : Int) (s t : Span) : Prop where
  start_eq : (t.start : Int) = s.start + d
  stop_eq : (t.stop : Int) = s.stop + d

/-- Only the end of a span moves. -/
structure GrownBy (d : Int) (s t : Span) : Prop where
  start_eq : t.start = s.start
  stop_eq : (t.stop : Int) = s.stop + d

end Span

/-! ### One piece among others -/

namespace Rendered

/-- The piece with another body. -/
def setBody (p : Rendered) (body : Text) : Rendered := { p with body }

/-- The span of the body of a piece that is written from a byte on. -/
def spanFrom (p : Rendered) (start : Nat) : Span :=
  ⟨start + p.opening.utf8Length, start + p.opening.utf8Length + p.body.utf8Length⟩

/-- The span of one of several pieces that are written one after the other from a byte on. -/
def spanAt? (start : Nat) (pieces : List Rendered) (k : Nat) : Option Span :=
  pieces[k]?.map fun p => p.spanFrom (start + size (pieces.take k))

theorem span_rangeBehind (before : Text) (p : Rendered) :
    (p.rangeBehind before).span = p.spanFrom before.utf8Length := by
  simp [rangeBehind, Cursor.between, Cursor.rangeTo, spanFrom, Nat.add_assoc]

theorem map_span_ranges (before : Text) (pieces : List Rendered) (k : Nat) :
    (ranges before pieces)[k]?.map Range.span = spanAt? before.utf8Length pieces k := by
  rw [getElem?_ranges, Option.map_map]
  unfold spanAt?
  congr 1
  funext p
  show (p.rangeBehind _).span = _
  rw [span_rangeBehind, Text.utf8Length_append, utf8Length_write]

theorem growth_spanFrom (p : Rendered) (start : Nat) (new : Text) :
    (p.spanFrom start).growth new = (new.utf8Length : Int) - p.body.utf8Length := by
  simp only [Span.growth, spanFrom]
  omega

theorem movedBy_spanFrom {d : Int} {start start' : Nat} (p : Rendered)
    (h : (start' : Int) = start + d) : (p.spanFrom start).MovedBy d (p.spanFrom start') := by
  constructor
  · simp only [spanFrom]
    omega
  · simp only [spanFrom]
    omega

/-- Where the first piece moves, each of them does. -/
theorem spanAt?_moved {d : Int} {start start' : Nat} (h : (start' : Int) = start + d)
    (pieces : List Rendered) (k : Nat) :
    Option.Rel (Span.MovedBy d) (spanAt? start pieces k) (spanAt? start' pieces k) := by
  unfold spanAt?
  cases pieces[k]? with
  | none => exact .none
  | some p =>
    refine .some (p.movedBy_spanFrom ?_)
    omega

variable {pieces : List Rendered} {k m : Nat} {p : Rendered} {body : Text}

theorem replacedAt_setBody (p : Rendered) (body : Text) :
    Text.ReplacedAt p.opening.utf8Length p.body body p.text (p.setBody body).text :=
  ⟨p.opening, p.closing, rfl, rfl, rfl⟩

/-- When the body of one piece is replaced, nothing else is in what is written. -/
theorem replacedAt_write (h : pieces[k]? = some p) (body : Text) :
    Text.ReplacedAt (size (pieces.take k) + p.opening.utf8Length) p.body body (write pieces)
      (write (pieces.set k (p.setBody body))) := by
  have hk : k < pieces.length := (List.getElem?_eq_some_iff.1 h).1
  have hset := write_eq_of_getElem? (List.getElem?_set_self (a := p.setBody body) hk)
  rw [List.take_set_of_le (Nat.le_refl k), List.drop_set_of_lt (Nat.lt_succ_self k)] at hset
  refine (p.replacedAt_setBody body).within ⟨write (pieces.take k), write (pieces.drop (k + 1)),
    ?_, ?_, (utf8Length_write _).symm⟩
  · rw [write_eq_of_getElem? h, List.append_assoc]
  · rw [hset, List.append_assoc]

theorem size_set (h : pieces[k]? = some p) (body : Text) :
    size (pieces.set k (p.setBody body)) + p.body.utf8Length = size pieces + body.utf8Length := by
  rw [← utf8Length_write, ← utf8Length_write]
  exact (replacedAt_write h body).utf8Length_eq

/-- Earlier pieces stay. -/
theorem spanAt?_set_of_lt (start : Nat) (q : Rendered) (hm : m < k) :
    spanAt? start (pieces.set k q) m = spanAt? start pieces m := by
  unfold spanAt?
  rw [List.getElem?_set_ne (Nat.ne_of_gt hm), List.take_set_of_le (Nat.le_of_lt hm)]

theorem spanAt?_set_self (start : Nat) (q : Rendered) (h : pieces[k]? = some p) :
    spanAt? start (pieces.set k q) k = some (q.spanFrom (start + size (pieces.take k))) := by
  have hk : k < pieces.length := (List.getElem?_eq_some_iff.1 h).1
  unfold spanAt?
  rw [List.getElem?_set_self hk, List.take_set_of_le (Nat.le_refl k)]
  rfl

/-- What is written before a later piece grows with the body. -/
theorem size_take_set (h : pieces[k]? = some p) (body : Text) (hm : k < m) :
    (size ((pieces.set k (p.setBody body)).take m) : Int) =
      size (pieces.take m) + ((body.utf8Length : Int) - p.body.utf8Length) := by
  have htake : (pieces.take m)[k]? = some p := by rw [List.getElem?_take_of_lt hm, h]
  have := size_set htake body
  rw [List.take_set]
  omega

/-- Later pieces move by what the text has grown. -/
theorem spanAt?_set_of_gt (start : Nat) (h : pieces[k]? = some p) (body : Text) (hm : k < m) :
    Option.Rel (Span.MovedBy ((body.utf8Length : Int) - p.body.utf8Length))
      (spanAt? start pieces m) (spanAt? start (pieces.set k (p.setBody body)) m) := by
  have hsize := size_take_set h body hm
  unfold spanAt?
  rw [List.getElem?_set_ne (Nat.ne_of_lt hm)]
  cases pieces[m]? with
  | none => exact .none
  | some q =>
    refine .some (q.movedBy_spanFrom ?_)
    omega

end Rendered

/-! ### Places -/

/-- Where an area stands in a list of areas: at the top level, or as a child of an area there. -/
inductive Place where
  | top (index : Nat)
  | child (index number : Nat)
deriving DecidableEq

namespace Place

/-- The number of the area at the top level. -/
def index : Place → Nat
  | top k => k
  | child k _ => k

/-- The place of the container. -/
def holder? : Place → Option Place
  | top _ => none
  | child k _ => some (top k)

/-- Document order: a container comes before its children, and they come before the next area. -/
def Before : Place → Place → Prop
  | top k, top m => k < m
  | top k, child m _ => k ≤ m
  | child k _, top m => k < m
  | child k i, child m j => k < m ∨ k = m ∧ i < j

end Place

/-- The container with other content in one of its children. -/
def Container.setChildContent (c : Container) (j : Nat) (content : Text) : Container :=
  { c with children := c.children.modify j (·.setContent content) }

namespace Area

/-- The identifier of what stands at a place. -/
def idAt? (areas : List Area) : Place → Option AreaId
  | .top k => areas[k]?.map id
  | .child k j => areas[k]?.bind fun a => (a.children.map Leaf.id)[j]?

/-- The leaf at a place, unless there is a container or nothing at all. -/
def leafAt? (areas : List Area) : Place → Option Leaf
  | .top k => areas[k]?.bind fun a => a.toLeaf.toOption
  | .child k j => areas[k]?.bind fun a => a.children[j]?

/-- The area with other content, if it is a leaf. -/
def setContent (content : Text) : Area → Area
  | leaf l => leaf (l.setContent content)
  | container c => container c

/-- The area with other content in one of its children. -/
def setChildContent (j : Nat) (content : Text) : Area → Area
  | leaf l => leaf l
  | container c => container (c.setChildContent j content)

/-- The list of areas with other content in the leaf at a place. -/
def setContentAt (areas : List Area) (p : Place) (content : Text) : List Area :=
  match p with
  | .top k => areas.modify k (setContent content)
  | .child k j => areas.modify k (setChildContent j content)

end Area

namespace BoundsTable

/-- What a table lists for a place. -/
def at? (t : BoundsTable) : Place → Option (AreaId × Range)
  | .top k => t.areas[k]?.map fun b => (b.id, b.range)
  | .child k j => t.areas[k]?.bind fun b => b.children[j]?

def spanAt? (t : BoundsTable) (p : Place) : Option Span := (t.at? p).map fun found => found.2.span

end BoundsTable

/-! ### Spans without a search -/

namespace Area

/-- The span of what stands at a place, by adding up bytes. -/
def spanAt? (g : OutputGrammar) (areas : List Area) : Place → Option Span
  | .top k => Rendered.spanAt? 0 (areas.map (render g)) k
  | .child k j => areas[k]?.bind fun a =>
    Rendered.spanAt?
      (Rendered.size ((areas.map (render g)).take k) + (a.render g).opening.utf8Length)
      (a.children.map (Leaf.render g)) j

theorem getElem?_layout (g : OutputGrammar) (before : Text) (areas : List Area) (k : Nat) :
    (layout g before areas)[k]? = areas[k]?.map fun a =>
      let start := before ++ Rendered.write ((areas.map (render g)).take k)
      ⟨a.id, (a.render g).rangeBehind start, (a.children.map Leaf.id).zip
        (Rendered.ranges (start ++ (a.render g).opening) (a.children.map (Leaf.render g)))⟩ := by
  induction areas generalizing before k with
  | nil => rfl
  | cons a rest ih =>
    cases k with
    | zero => simp [layout]
    | succ k => simp [layout, ih]

/-- A table lists every area and every child, each at its place. -/
theorem idAt?_layout (g : OutputGrammar) (areas : List Area) (p : Place) :
    ((⟨layout g [] areas⟩ : BoundsTable).at? p).map Prod.fst = idAt? areas p := by
  cases p with
  | top k =>
    simp only [BoundsTable.at?, idAt?, getElem?_layout, Option.map_map]
    rfl
  | child k j =>
    simp only [BoundsTable.at?, idAt?, getElem?_layout]
    cases areas[k]? with
    | none => rfl
    | some a =>
      simp only [Option.map_some, Option.bind_some]
      rw [← List.getElem?_map, List.map_fst_zip]
      simp

/-- The spans of a table are what adding up bytes yields. -/
theorem spanAt?_layout (g : OutputGrammar) (areas : List Area) (p : Place) :
    (⟨layout g [] areas⟩ : BoundsTable).spanAt? p = spanAt? g areas p := by
  unfold BoundsTable.spanAt?
  cases p with
  | top k =>
    have hspans := Rendered.map_span_ranges [] (areas.map (render g)) k
    rw [← ranges_layout, List.getElem?_map, Option.map_map] at hspans
    simp only [BoundsTable.at?, Option.map_map]
    exact hspans
  | child k j =>
    simp only [BoundsTable.at?, spanAt?, getElem?_layout]
    cases areas[k]? with
    | none => rfl
    | some a =>
      have hsnd : ∀ rs : List Range, rs.length = a.children.length →
          ((a.children.map Leaf.id).zip rs)[j]?.map (fun found => found.2.span) =
            rs[j]?.map Range.span := by
        intro rs hlength
        have hmap : ((a.children.map Leaf.id).zip rs).map Prod.snd = rs := by
          apply List.map_snd_zip
          simp [hlength]
        rw [← hmap, List.getElem?_map, Option.map_map, hmap]
        rfl
      simp only [Option.map_some, Option.bind_some]
      rw [hsnd _ (by simp), Rendered.map_span_ranges]
      simp [Rendered.utf8Length_write]

/-! ### One area among others -/

section

variable {g : OutputGrammar} {areas : List Area} {k : Nat} {a b : Area} {body : Text}

theorem getElem?_map_render (ha : areas[k]? = some a) :
    (areas.map (render g))[k]? = some (a.render g) := by
  rw [List.getElem?_map, ha]
  rfl

theorem spanAt?_top (ha : areas[k]? = some a) :
    spanAt? g areas (.top k) =
      some ((a.render g).spanFrom (Rendered.size ((areas.map (render g)).take k))) := by
  simp only [spanAt?, Rendered.spanAt?, getElem?_map_render ha, Nat.zero_add, Option.map_some]

theorem spanAt?_child (ha : areas[k]? = some a) (j : Nat) :
    spanAt? g areas (.child k j) = Rendered.spanAt?
      (Rendered.size ((areas.map (render g)).take k) + (a.render g).opening.utf8Length)
      (a.children.map (Leaf.render g)) j := by
  simp only [spanAt?, ha, Option.bind_some]

/-- What is written before an area does not depend on the area. -/
theorem take_map_render_set :
    ((areas.set k b).map (render g)).take k = (areas.map (render g)).take k := by
  rw [List.map_set, List.take_set_of_le (Nat.le_refl k)]

/-- Everything in earlier areas stays. -/
theorem spanAt?_set_of_lt {q : Place} (hq : q.index < k) :
    spanAt? g (areas.set k b) q = spanAt? g areas q := by
  cases q with
  | top m =>
    have hm : m < k := hq
    simp only [spanAt?]
    rw [List.map_set, Rendered.spanAt?_set_of_lt 0 _ hm]
  | child m i =>
    have hm : m < k := hq
    simp only [spanAt?]
    rw [List.map_set, List.getElem?_set_ne (Nat.ne_of_gt hm),
      List.take_set_of_le (Nat.le_of_lt hm)]

/-- Everything in later areas moves by what the text has grown. -/
theorem spanAt?_set_of_gt (ha : areas[k]? = some a)
    (hb : b.render g = (a.render g).setBody body) {q : Place} (hq : k < q.index) :
    Option.Rel (Span.MovedBy ((body.utf8Length : Int) - (a.render g).body.utf8Length))
      (spanAt? g areas q) (spanAt? g (areas.set k b) q) := by
  have hrender := getElem?_map_render (g := g) ha
  cases q with
  | top m =>
    simp only [spanAt?]
    rw [List.map_set, hb]
    exact Rendered.spanAt?_set_of_gt 0 hrender body hq
  | child m i =>
    have hm : k < m := hq
    have hsize := Rendered.size_take_set hrender body hm
    simp only [spanAt?]
    rw [List.map_set, hb, List.getElem?_set_ne (Nat.ne_of_lt hm)]
    cases areas[m]? with
    | none => exact .none
    | some c =>
      refine Rendered.spanAt?_moved ?_ _ i
      omega

end

end Area

/-! ### One leaf in its container -/

theorem Leaf.body_render (g : OutputGrammar) (l : Leaf) : (l.render g).body = l.content := rfl

namespace Container

variable {c : Container} {j : Nat} {l : Leaf}

theorem getElem?_map_render (g : OutputGrammar) (hl : c.children[j]? = some l) :
    (c.children.map (Leaf.render g))[j]? = some (l.render g) := by
  rw [List.getElem?_map, hl]
  rfl

/-- Among the written children only the edited one is another. -/
theorem map_render_setChildContent (g : OutputGrammar) (hl : c.children[j]? = some l)
    (content : Text) :
    (c.setChildContent j content).children.map (Leaf.render g) =
      (c.children.map (Leaf.render g)).set j ((l.render g).setBody content) := by
  show (c.children.modify j _).map _ = _
  rw [List.modify_eq_set_getElem?, hl]
  exact List.map_set

/-- In what is written inside the container, the content of the child is replaced. -/
theorem replacedAt_body (g : OutputGrammar) (hl : c.children[j]? = some l) (content : Text) :
    Text.ReplacedAt
      (Rendered.size ((c.children.map (Leaf.render g)).take j) + (l.render g).opening.utf8Length)
      l.content content ((Area.container c).render g).body
      ((Area.container (c.setChildContent j content)).render g).body := by
  rw [body_render, body_render, map_render_setChildContent g hl]
  exact Rendered.replacedAt_write (getElem?_map_render g hl) content

/-- So the container grows by as many bytes as the child. -/
theorem growth_body (g : OutputGrammar) (hl : c.children[j]? = some l) (content : Text) :
    (((Area.container (c.setChildContent j content)).render g).body.utf8Length : Int) -
        ((Area.container c).render g).body.utf8Length =
      (content.utf8Length : Int) - l.content.utf8Length := by
  have := (replacedAt_body g hl content).utf8Length_eq
  omega

end Container

/-! ### What an edit does -/

/-- How spans follow when the leaf at a place, which has the span `s`, gets other content. -/
structure Follows (p : Place) (s : Span) (content : Text) (old new : Place → Option Span) :
    Prop where
  /-- The leaf begins where it began, and ends where its new content does. -/
  leaf : old p = some s ∧ new p = some ⟨s.start, s.start + content.utf8Length⟩
  /-- Of the container of the leaf only the end moves. -/
  holder : ∀ q, p.holder? = some q →
    Option.Rel (Span.GrownBy (s.growth content)) (old q) (new q)
  /-- Everything else that comes earlier stays. -/
  earlier : ∀ q, q.Before p → p.holder? ≠ some q → new q = old q
  /-- Everything that comes later moves. -/
  later : ∀ q, p.Before q → Option.Rel (Span.MovedBy (s.growth content)) (old q) (new q)

namespace Area

variable {g : OutputGrammar} {areas : List Area} {k j : Nat} {l : Leaf} {c : Container}

theorem leafAt?_top_iff : leafAt? areas (.top k) = some l ↔ areas[k]? = some (.leaf l) := by
  simp only [leafAt?]
  cases areas[k]? with
  | none => simp
  | some a =>
    cases a with
    | leaf l => simp [toLeaf, Except.toOption]
    | container c =>
      obtain ⟨_, heading, _, _⟩ := c
      cases heading <;> simp [toLeaf, Except.toOption]

theorem leafAt?_child_iff : leafAt? areas (.child k j) = some l ↔
    ∃ c, areas[k]? = some (.container c) ∧ c.children[j]? = some l := by
  simp only [leafAt?]
  cases areas[k]? with
  | none => simp
  | some a => cases a <;> simp [children]

theorem setContentAt_top (hl : areas[k]? = some (.leaf l)) (content : Text) :
    setContentAt areas (.top k) content = areas.set k (.leaf (l.setContent content)) := by
  simp only [setContentAt]
  rw [List.modify_eq_set_getElem?, hl]
  rfl

theorem setContentAt_child (hc : areas[k]? = some (.container c)) (content : Text) :
    setContentAt areas (.child k j) content =
      areas.set k (.container (c.setChildContent j content)) := by
  simp only [setContentAt]
  rw [List.modify_eq_set_getElem?, hc]
  rfl

theorem spanAt?_child_leaf (hc : areas[k]? = some (.container c))
    (hl : c.children[j]? = some l) :
    spanAt? g areas (.child k j) = some ((l.render g).spanFrom
      (Rendered.size ((areas.map (render g)).take k) +
        ((container c).render g).opening.utf8Length +
        Rendered.size ((c.children.map (Leaf.render g)).take j))) := by
  rw [spanAt?_child hc]
  show Rendered.spanAt? _ (c.children.map (Leaf.render g)) j = _
  unfold Rendered.spanAt?
  rw [Container.getElem?_map_render g hl]
  rfl

/-- The children of a container begin where they began when one of them is edited, and all others
    are written as before. -/
theorem spanAt?_set_child (hc : areas[k]? = some (.container c)) (hl : c.children[j]? = some l)
    (content : Text) (i : Nat) :
    spanAt? g (areas.set k (.container (c.setChildContent j content))) (.child k i) =
      Rendered.spanAt?
        (Rendered.size ((areas.map (render g)).take k) +
          ((container c).render g).opening.utf8Length)
        ((c.children.map (Leaf.render g)).set j ((l.render g).setBody content)) i := by
  have hset : (areas.set k (.container (c.setChildContent j content)))[k]? =
      some (.container (c.setChildContent j content)) :=
    List.getElem?_set_self (List.getElem?_eq_some_iff.1 hc).1
  rw [spanAt?_child hset, take_map_render_set, ← Container.map_render_setChildContent g hl]
  rfl

/-- Every leaf has a span, which is as long as its content. -/
theorem exists_spanAt? (g : OutputGrammar) {p : Place} (h : leafAt? areas p = some l) :
    ∃ s, spanAt? g areas p = some s ∧ s.stop = s.start + l.content.utf8Length := by
  cases p with
  | top k =>
    rw [leafAt?_top_iff] at h
    exact ⟨_, spanAt?_top h, rfl⟩
  | child k j =>
    obtain ⟨c, hc, hl⟩ := leafAt?_child_iff.1 h
    exact ⟨_, spanAt?_child_leaf hc hl, rfl⟩

/-- In what is written, the content of the leaf is replaced. -/
theorem replacedAt_write {p : Place} {s : Span} (h : leafAt? areas p = some l)
    (hs : spanAt? g areas p = some s) (content : Text) :
    Text.ReplacedAt s.start l.content content (write g areas)
      (write g (setContentAt areas p content)) := by
  rw [write_eq, write_eq]
  cases p with
  | top k =>
    rw [leafAt?_top_iff] at h
    rw [spanAt?_top h] at hs
    obtain rfl := Option.some.inj hs
    rw [setContentAt_top h, List.map_set]
    exact Rendered.replacedAt_write (getElem?_map_render h) content
  | child k j =>
    obtain ⟨c, hc, hl⟩ := leafAt?_child_iff.1 h
    rw [spanAt?_child_leaf hc hl] at hs
    obtain rfl := Option.some.inj hs
    rw [setContentAt_child hc, List.map_set]
    -- the content is replaced inside the container, and that inside the list
    have hinside := Container.replacedAt_body g hl content
    have houtside := Rendered.replacedAt_write (getElem?_map_render (g := g) hc)
      ((container (c.setChildContent j content)).render g).body
    have := hinside.within houtside
    rwa [← Nat.add_assoc] at this

/-- A leaf at the top level is edited. -/
theorem follows_top {s : Span} (hl : areas[k]? = some (.leaf l))
    (hs : spanAt? g areas (.top k) = some s) (content : Text) :
    Follows (.top k) s content (spanAt? g areas)
      (spanAt? g (areas.set k (.leaf (l.setContent content)))) := by
  have hset : (areas.set k (.leaf (l.setContent content)))[k]? =
      some (.leaf (l.setContent content)) :=
    List.getElem?_set_self (List.getElem?_eq_some_iff.1 hl).1
  have hbody : (leaf (l.setContent content)).render g = ((leaf l).render g).setBody content := rfl
  have hspan := hs
  rw [spanAt?_top hl] at hspan
  obtain rfl := Option.some.inj hspan
  constructor
  case leaf =>
    refine ⟨hs, ?_⟩
    rw [spanAt?_top hset, take_map_render_set]
    rfl
  case holder =>
    intro q hq
    exact nomatch hq
  case earlier =>
    intro q hq _
    apply spanAt?_set_of_lt
    cases q <;> exact hq
  case later =>
    intro q hq
    rw [Rendered.growth_spanFrom]
    cases q with
    | top m => exact spanAt?_set_of_gt hl hbody hq
    | child m i =>
      rcases Nat.lt_or_eq_of_le hq with hm | rfl
      · exact spanAt?_set_of_gt hl hbody hm
      · -- a leaf has no children
        rw [spanAt?_child hl, spanAt?_child hset]
        exact .none

/-- A child of a container is edited. -/
theorem follows_child {s : Span} (hc : areas[k]? = some (.container c))
    (hl : c.children[j]? = some l) (hs : spanAt? g areas (.child k j) = some s)
    (content : Text) :
    Follows (.child k j) s content (spanAt? g areas)
      (spanAt? g (areas.set k (.container (c.setChildContent j content)))) := by
  have hset : (areas.set k (.container (c.setChildContent j content)))[k]? =
      some (.container (c.setChildContent j content)) :=
    List.getElem?_set_self (List.getElem?_eq_some_iff.1 hc).1
  have hbody : (container (c.setChildContent j content)).render g =
      ((container c).render g).setBody
        ((container (c.setChildContent j content)).render g).body := rfl
  have hpiece := Container.getElem?_map_render g hl
  have hgrowth := Container.growth_body g hl content
  have hspan := hs
  rw [spanAt?_child_leaf hc hl] at hspan
  obtain rfl := Option.some.inj hspan
  constructor
  case leaf =>
    refine ⟨hs, ?_⟩
    rw [spanAt?_set_child hc hl, Rendered.spanAt?_set_self _ _ hpiece]
    rfl
  case holder =>
    rintro _ ⟨⟩
    rw [spanAt?_top hc, spanAt?_top hset, take_map_render_set, Rendered.growth_spanFrom,
      l.body_render, ← hgrowth, hbody]
    refine .some ⟨rfl, ?_⟩
    simp only [Rendered.spanFrom, Rendered.setBody]
    omega
  case earlier =>
    intro q hq hholder
    cases q with
    | top m =>
      rcases Nat.lt_or_eq_of_le hq with hm | rfl
      · exact spanAt?_set_of_lt hm
      · exact absurd rfl hholder
    | child m i =>
      rcases hq with hm | ⟨rfl, hi⟩
      · exact spanAt?_set_of_lt hm
      · rw [spanAt?_set_child hc hl, Rendered.spanAt?_set_of_lt _ _ hi, spanAt?_child hc]
        rfl
  case later =>
    intro q hq
    rw [Rendered.growth_spanFrom, l.body_render]
    cases q with
    | top m =>
      rw [← hgrowth]
      exact spanAt?_set_of_gt hc hbody hq
    | child m i =>
      rcases hq with hm | ⟨rfl, hi⟩
      · rw [← hgrowth]
        exact spanAt?_set_of_gt hc hbody hm
      · -- a later child of the same container
        rw [spanAt?_set_child hc hl, spanAt?_child hc]
        exact Rendered.spanAt?_set_of_gt _ hpiece content hi

theorem follows_setContentAt {p : Place} {s : Span} (h : leafAt? areas p = some l)
    (hs : spanAt? g areas p = some s) (content : Text) :
    Follows p s content (spanAt? g areas) (spanAt? g (setContentAt areas p content)) := by
  cases p with
  | top k =>
    rw [leafAt?_top_iff] at h
    rw [setContentAt_top h]
    exact follows_top h hs content
  | child k j =>
    obtain ⟨c, hc, hl⟩ := leafAt?_child_iff.1 h
    rw [setContentAt_child hc]
    exact follows_child hc hl hs content

/-! ### Identifiers stay -/

theorem idAt?_modify {f : Area → Area} (hid : ∀ a, (f a).id = a.id)
    (hids : ∀ a, (f a).children.map Leaf.id = a.children.map Leaf.id) (q : Place) :
    idAt? (areas.modify k f) q = idAt? areas q := by
  cases q with
  | top m =>
    simp only [idAt?, List.getElem?_modify]
    cases areas[m]? with
    | none => rfl
    | some a =>
      show some (if k = m then f a else a).id = some a.id
      split
      · rw [hid]
      · rfl
  | child m i =>
    simp only [idAt?, List.getElem?_modify]
    cases areas[m]? with
    | none => rfl
    | some a =>
      show ((if k = m then f a else a).children.map Leaf.id)[i]? = (a.children.map Leaf.id)[i]?
      split
      · rw [hids]
      · rfl

theorem idAt?_setContentAt (areas : List Area) (p : Place) (content : Text) (q : Place) :
    idAt? (setContentAt areas p content) q = idAt? areas q := by
  cases p with
  | top k =>
    refine idAt?_modify ?_ ?_ q
    · rintro (l | c) <;> rfl
    · rintro (l | c) <;> rfl
  | child k j =>
    refine idAt?_modify ?_ ?_ q
    · rintro (l | c) <;> rfl
    · rintro (l | c)
      · rfl
      · show (c.children.modify j _).map Leaf.id = c.children.map Leaf.id
        apply List.ext_getElem?
        intro i
        rw [List.getElem?_map, List.getElem?_map, List.getElem?_modify]
        cases c.children[i]? with
        | none => rfl
        | some l => by_cases hi : j = i <;> simp [hi, Leaf.setContent]

/-- The edit of a leaf is a splice at its span. The bounds that are found for the new areas list the
    same areas as before at the same places, and their spans follow the edit. -/
theorem bounds_setContentAt (g : OutputGrammar) (areas : List Area) (p : Place) (l : Leaf)
    (content : Text) (h : leafAt? areas p = some l) :
    ∃ (old new : BoundsTable) (s : Span),
      bounds g areas = .ok old ∧ bounds g (setContentAt areas p content) = .ok new ∧
      (∀ q, (old.at? q).map Prod.fst = idAt? areas q ∧
        (new.at? q).map Prod.fst = idAt? areas q) ∧
      (write g areas).splice? s.start s.stop content =
        some (write g (setContentAt areas p content)) ∧
      Follows p s content old.spanAt? new.spanAt? := by
  obtain ⟨s, hs, hstop⟩ := exists_spanAt? g h
  refine ⟨⟨layout g [] areas⟩, ⟨layout g [] (setContentAt areas p content)⟩, s,
    bounds_eq_ok g areas, bounds_eq_ok g _, ?_, ?_, ?_⟩
  · intro q
    refine ⟨idAt?_layout g areas q, ?_⟩
    rw [idAt?_layout, idAt?_setContentAt]
  · rw [hstop]
    exact (replacedAt_write h hs content).splice?_eq
  · rw [funext (spanAt?_layout g areas), funext (spanAt?_layout g (setContentAt areas p content))]
    exact follows_setContentAt h hs content

/-- A hint with the same code in it twice, after a text with nothing in it. -/
def twins : List Area :=
  (number [.leaf ⟨.text, []⟩,
    .container (.collapsible ['t']) [⟨.code, ['Q', 'e', 'd']⟩, ⟨.code, ['Q', 'e', 'd']⟩],
    .leaf ⟨.text, ['Q', 'e', 'd']⟩] {}).1

/-- The second of them gets a content that looks like the end of the hint. -/
theorem bounds_setContentAt_twins :
    leafAt? twins (.child 1 1) = some ⟨⟨3, by decide⟩, .code, ['Q', 'e', 'd'], none⟩ ∧
    ∃ (old new : BoundsTable) (s : Span),
      bounds .coqmd twins = .ok old ∧
      bounds .coqmd (setContentAt twins (.child 1 1) "</hint>".toList) = .ok new ∧
      (∀ q, (old.at? q).map Prod.fst = idAt? twins q ∧
        (new.at? q).map Prod.fst = idAt? twins q) ∧
      (write .coqmd twins).splice? s.start s.stop "</hint>".toList =
        some (write .coqmd (setContentAt twins (.child 1 1) "</hint>".toList)) ∧
      Follows (.child 1 1) s "</hint>".toList old.spanAt? new.spanAt? :=
  ⟨rfl, bounds_setContentAt .coqmd twins (.child 1 1)
    ⟨⟨3, by decide⟩, .code, ['Q', 'e', 'd'], none⟩ "</hint>".toList rfl⟩

end Area

end Worksheet
