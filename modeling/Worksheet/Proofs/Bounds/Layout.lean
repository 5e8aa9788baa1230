import Mathlib.Algebra.GroupWithZero.Nat
import Mathlib.Data.List.Forall2
import Worksheet.Bounds
import Worksheet.Proofs.Text.Seam

/-! # The layout of a written document

  Bounds are found by a search, with a cursor that moves from left to right. This module shows that
  the search never strays: wherever the cursor stands when an area is sought, the rest of the text
  begins with that very area, so the first place where it is found is the cursor itself. This holds
  for any delimiters and contents, also empty and repeated ones.

  - `Cursor.between` is the cursor at a seam of the text; the search keeps its cursor of this form.
  - `Rendered.ranges` lays pieces out by adding up texts, without any search.
  - `LaidOut` says what such a layout means in bytes, slices and positions.
  - The main statement is that the search finds bounds for every list of areas, and that they are
    laid out, at the top level and inside every container.
-/

namespace Worksheet

/-! ### Cursors at seams -/

namespace Cursor

/-- The cursor between two parts of a text. -/
def between (before after : Text) : Cursor :=
  ⟨before.utf8Length, Position.zero.advance before, after⟩

theorem start_eq_between (s : Text) : Cursor.start s = between [] s := rfl

/-- A cursor passes over a text that the rest begins with. -/
@[simp] theorem advance_between (before s after : Text) :
    (between before (s ++ after)).advance s = between (before ++ s) after := by
  simp [between, advance]

/-- A needle that the rest begins with is found where the cursor stands. -/
theorem seek?_between (before needle after : Text) :
    (between before (needle ++ after)).seek? needle = some (between before (needle ++ after)) := by
  unfold seek?
  rw [show (between before (needle ++ after)).rest = needle ++ after from rfl, Text.cut?_append]
  simp [between, advance]

end Cursor

/-! ### Layout by adding up -/

namespace Rendered

/-- The range of the body of a piece that is written behind `before`. -/
def rangeBehind (before : Text) (p : Rendered) : Range :=
  (Cursor.between (before ++ p.opening) []).rangeTo (.between (before ++ p.opening ++ p.body) [])

/-- The ranges of pieces that are written one after the other behind `before`. -/
def ranges (before : Text) : List Rendered → List Range
  | [] => []
  | p :: rest => p.rangeBehind before :: ranges (before ++ p.text) rest

/-- Pieces written one after the other. -/
def write (pieces : List Rendered) : Text := pieces.flatMap text

@[simp] theorem write_nil : write [] = [] := rfl

@[simp] theorem write_cons (p : Rendered) (rest : List Rendered) :
    write (p :: rest) = p.text ++ write rest := rfl

/-- Sought from where it is written, a piece is found there. -/
theorem seek?_between (before after : Text) (p : Rendered) :
    p.seek? (.between before (p.text ++ after)) =
      some ⟨.between (before ++ p.opening) (p.body ++ (p.closing ++ after)),
        .between (before ++ p.opening ++ p.body) (p.closing ++ after),
        .between (before ++ p.text) after⟩ := by
  unfold seek?
  rw [Cursor.seek?_between]
  simp [Rendered.text, List.append_assoc]

end Rendered

/-! ### The search follows the layout -/

/-- The bounds of areas that are written one after the other behind `before`. -/
def Area.layout (g : OutputGrammar) (before : Text) : List Area → List Bounds
  | [] => []
  | a :: rest =>
    ⟨a.id, (a.render g).rangeBehind before, (a.children.map Leaf.id).zip
      (Rendered.ranges (before ++ (a.render g).opening) (a.children.map (Leaf.render g)))⟩ ::
      layout g (before ++ (a.render g).text) rest

/-- Leaves that are written from the cursor on are found one after the other. -/
theorem Leaf.bounds_eq_ok (g : OutputGrammar) (leaves : List Leaf) (before after : Text) :
    Leaf.bounds g leaves
        (.between before (Rendered.write (leaves.map (Leaf.render g)) ++ after)) =
      .ok ((leaves.map Leaf.id).zip (Rendered.ranges before (leaves.map (Leaf.render g)))) := by
  induction leaves generalizing before with
  | nil => rfl
  | cons l rest ih =>
    rw [List.map_cons, Rendered.write_cons, List.append_assoc, Leaf.bounds,
      Rendered.seek?_between]
    simp only [ih]
    rfl

/-- What is written inside a container is the written form of its children, one after the other. -/
theorem Container.body_render (g : OutputGrammar) (c : Container) :
    ((Area.container c).render g).body = Rendered.write (c.children.map (Leaf.render g)) := by
  show LeafShape.write g (c.children.map Leaf.shape) = _
  unfold LeafShape.write Rendered.write
  rw [List.flatMap_map, List.flatMap_map]
  rfl

theorem Area.body_render (g : OutputGrammar) (a : Area) (h : a.children ≠ []) :
    (a.render g).body = Rendered.write (a.children.map (Leaf.render g)) := by
  cases a with
  | leaf l => exact absurd rfl h
  | container c => exact c.body_render g

/-- The children of an area are found inside it. -/
theorem Area.childBounds_eq_ok (g : OutputGrammar) (a : Area) (before after : Text) :
    Leaf.bounds g a.children (.between before ((a.render g).body ++ after)) =
      .ok ((a.children.map Leaf.id).zip
        (Rendered.ranges before (a.children.map (Leaf.render g)))) := by
  by_cases h : a.children = []
  · -- a leaf has none, and neither has an empty container
    rw [h]
    rfl
  · rw [Area.body_render g a h]
    exact Leaf.bounds_eq_ok g a.children before after

/-- Areas that are written from the cursor on are found one after the other. -/
theorem Area.boundsFrom_eq_ok (g : OutputGrammar) (areas : List Area) (before after : Text) :
    Area.boundsFrom g areas
        (.between before (Rendered.write (areas.map (Area.render g)) ++ after)) =
      .ok (Area.layout g before areas) := by
  induction areas generalizing before with
  | nil => rfl
  | cons a rest ih =>
    -- the children are sought from the cursor inside, the other areas from the one behind
    rw [List.map_cons, Rendered.write_cons, List.append_assoc, Area.boundsFrom,
      Rendered.seek?_between]
    simp only [Area.childBounds_eq_ok, ih]
    rfl

theorem Area.write_eq (g : OutputGrammar) (areas : List Area) :
    Area.write g areas = Rendered.write (areas.map (Area.render g)) := by
  unfold Area.write Shape.write Rendered.write
  rw [List.flatMap_map, List.flatMap_map]
  rfl

/-- The search finds bounds for all areas, and they are those of the layout. -/
theorem Area.bounds_eq_ok (g : OutputGrammar) (areas : List Area) :
    Area.bounds g areas = .ok ⟨Area.layout g [] areas⟩ := by
  have h := Area.boundsFrom_eq_ok g areas [] []
  rw [List.append_nil, ← Area.write_eq] at h
  unfold Area.bounds
  rw [Cursor.start_eq_between, h]
  rfl

/-! ### What a layout means -/

namespace Rendered

/-- Number of bytes of pieces written one after the other. -/
def size (pieces : List Rendered) : Nat := (pieces.map fun p => p.text.utf8Length).sum

theorem utf8Length_write (pieces : List Rendered) : (write pieces).utf8Length = size pieces := by
  induction pieces with
  | nil => rfl
  | cons p rest ih => simp [size, ih]

/-- Around each of them, pieces fall into those before it and those behind it. -/
theorem write_eq_of_getElem? {pieces : List Rendered} {k : Nat} {p : Rendered}
    (h : pieces[k]? = some p) :
    write pieces = write (pieces.take k) ++ (p.text ++ write (pieces.drop (k + 1))) := by
  obtain ⟨hk, rfl⟩ := List.getElem?_eq_some_iff.1 h
  rw [← write_cons, ← List.drop_eq_getElem_cons hk]
  unfold write
  rw [← List.flatMap_append, List.take_append_drop]

theorem write_take_succ {pieces : List Rendered} {k : Nat} {p : Rendered}
    (h : pieces[k]? = some p) :
    write (pieces.take (k + 1)) = write (pieces.take k) ++ p.text := by
  obtain ⟨hk, rfl⟩ := List.getElem?_eq_some_iff.1 h
  rw [← List.take_append_getElem hk]
  unfold write
  rw [List.flatMap_append, List.flatMap_singleton]

@[simp] theorem length_ranges (before : Text) (pieces : List Rendered) :
    (ranges before pieces).length = pieces.length := by
  induction pieces generalizing before with
  | nil => rfl
  | cons p rest ih => simp [ranges, ih]

/-- The range of a piece depends on the pieces before it only. -/
theorem getElem?_ranges (before : Text) (pieces : List Rendered) (k : Nat) :
    (ranges before pieces)[k]? =
      pieces[k]?.map fun p => p.rangeBehind (before ++ write (pieces.take k)) := by
  induction pieces generalizing before k with
  | nil => rfl
  | cons p rest ih =>
    cases k with
    | zero => simp [ranges]
    | succ k => simp [ranges, ih]

/-- No range begins before the pieces do. -/
theorem le_start_of_mem_ranges {before : Text} {pieces : List Rendered} {r : Range}
    (h : r ∈ ranges before pieces) : before.utf8Length ≤ r.span.start := by
  induction pieces generalizing before with
  | nil => simp [ranges] at h
  | cons p rest ih =>
    rcases List.mem_cons.1 h with rfl | h
    · show before.utf8Length ≤ (before ++ p.opening).utf8Length
      simp
    · have := ih h
      simp only [Text.utf8Length_append] at this
      omega

/-- No range ends behind the pieces. -/
theorem stop_le_of_mem_ranges {before : Text} {pieces : List Rendered} {r : Range}
    (h : r ∈ ranges before pieces) : r.span.stop ≤ before.utf8Length + size pieces := by
  induction pieces generalizing before with
  | nil => simp [ranges] at h
  | cons p rest ih =>
    have hsize : size (p :: rest) = p.text.utf8Length + size rest := by simp [size]
    rcases List.mem_cons.1 h with rfl | h
    · show (before ++ p.opening ++ p.body).utf8Length ≤ _
      rw [hsize]
      simp only [Rendered.text, Text.utf8Length_append]
      omega
    · have := ih h
      simp only [Text.utf8Length_append] at this
      omega

/-- Each range ends before the next one begins. -/
theorem pairwise_ranges (before : Text) (pieces : List Rendered) :
    (ranges before pieces).Pairwise fun r t => r.span.stop ≤ t.span.start := by
  induction pieces generalizing before with
  | nil => exact .nil
  | cons p rest ih =>
    refine .cons ?_ (ih _)
    intro t ht
    -- all later pieces are written behind this one, its closing included
    have hle := le_start_of_mem_ranges ht
    show (before ++ p.opening ++ p.body).utf8Length ≤ t.span.start
    simp only [Rendered.text, Text.utf8Length_append] at hle ⊢
    omega

end Rendered

/-- Pieces are written one after the other in `source` from the byte offset `start` on, and
    `ranges` are the places of their bodies, in the same order. -/
structure LaidOut (source : Text) (start : Nat) (pieces : List Rendered) (ranges : List Range) :
    Prop where
  /-- Each piece has one range. -/
  length_eq : ranges.length = pieces.length
  /-- A span begins behind all earlier pieces and the piece's own opening. -/
  span_start : ∀ (k : Nat) (p : Rendered) (r : Range), pieces[k]? = some p → ranges[k]? = some r →
    r.span.start = start + Rendered.size (pieces.take k) + p.opening.utf8Length
  /-- A span ends where only the piece's own closing is left. -/
  span_stop : ∀ (k : Nat) (p : Rendered) (r : Range), pieces[k]? = some p → ranges[k]? = some r →
    r.span.stop + p.closing.utf8Length = start + Rendered.size (pieces.take (k + 1))
  /-- A span cuts the body of its piece out of the source. -/
  slice_eq : ∀ (k : Nat) (p : Rendered) (r : Range), pieces[k]? = some p → ranges[k]? = some r →
    source.slice? r.span.start r.span.stop = some p.body
  /-- The ends of a range are the positions of the ends of its span. -/
  position_eq : ∀ r ∈ ranges, source.rangeOf? r.span = some r
  /-- Spans do not overlap and come in the order of the pieces. -/
  ordered : ranges.Pairwise fun r t => r.span.stop ≤ t.span.start

/-- Adding up texts yields a layout of the text that is put together. -/
theorem Rendered.laidOut_ranges (before after : Text) (pieces : List Rendered) :
    LaidOut (before ++ (write pieces ++ after)) before.utf8Length pieces
      (ranges before pieces) := by
  -- around each piece the source falls into what is before its body, the body, and what follows
  have hsplit : ∀ (k : Nat) (p : Rendered), pieces[k]? = some p →
      before ++ (write pieces ++ after) =
        (before ++ write (pieces.take k) ++ p.opening) ++ p.body ++
          (p.closing ++ (write (pieces.drop (k + 1)) ++ after)) := by
    intro k p hp
    rw [write_eq_of_getElem? hp]
    simp [Rendered.text]
  have hrange : ∀ (k : Nat) (p : Rendered) (r : Range), pieces[k]? = some p →
      (ranges before pieces)[k]? = some r →
      r = p.rangeBehind (before ++ write (pieces.take k)) := by
    intro k p r hp hr
    rw [getElem?_ranges, hp] at hr
    exact (Option.some.inj hr).symm
  refine ⟨length_ranges before pieces, ?_, ?_, ?_, ?_, pairwise_ranges before pieces⟩
  · intro k p r hp hr
    rw [hrange k p r hp hr, ← utf8Length_write]
    show (before ++ write (pieces.take k) ++ p.opening).utf8Length = _
    rw [Text.utf8Length_append, Text.utf8Length_append]
  · intro k p r hp hr
    rw [hrange k p r hp hr, ← utf8Length_write, write_take_succ hp]
    show (before ++ write (pieces.take k) ++ p.opening ++ p.body).utf8Length + _ = _
    simp only [Rendered.text, Text.utf8Length_append]
    omega
  · intro k p r hp hr
    rw [hrange k p r hp hr, hsplit k p hp]
    have h := Text.slice?_append (before ++ write (pieces.take k) ++ p.opening) p.body
      (p.closing ++ (write (pieces.drop (k + 1)) ++ after))
    rwa [← Text.utf8Length_append] at h
  · intro r hr
    obtain ⟨k, hr⟩ := List.mem_iff_getElem?.1 hr
    obtain ⟨p, hp⟩ : ∃ p, pieces[k]? = some p := by
      rw [getElem?_ranges] at hr
      obtain ⟨p, hp, -⟩ := Option.map_eq_some_iff.1 hr
      exact ⟨p, hp⟩
    rw [hrange k p r hp hr, hsplit k p hp]
    exact Text.rangeOf?_append (before ++ write (pieces.take k) ++ p.opening) p.body _

/-! ### Bounds of a written document -/

/-- The bounds of one area in `source`, with those of its children. -/
structure Bounds.Fits (g : OutputGrammar) (source : Text) (a : Area) (b : Bounds) : Prop where
  id_eq : b.id = a.id
  children_ids : b.children.map Prod.fst = a.children.map Leaf.id
  /-- Children are laid out from where the content of their container begins. -/
  children_laidOut : LaidOut source b.range.span.start (a.children.map (Leaf.render g))
    (b.children.map Prod.snd)
  /-- Children lie within their container. -/
  children_within : ∀ r ∈ b.children.map Prod.snd,
    b.range.span.start ≤ r.span.start ∧ r.span.stop ≤ b.range.span.stop
  /-- The span of a leaf at the top level cuts out its content. -/
  slice_leaf : ∀ l, a = .leaf l →
    source.slice? b.range.span.start b.range.span.stop = some l.content
  /-- The span of a child cuts out its content. -/
  slice_child : List.Forall₂
    (fun l c => source.slice? c.2.span.start c.2.span.stop = some l.content) a.children b.children

/-- Where leaves are laid out, spans cut out their contents. -/
theorem LaidOut.slice_content {g : OutputGrammar} {source : Text} {start : Nat}
    {leaves : List Leaf} {found : List (AreaId × Range)}
    (h : LaidOut source start (leaves.map (Leaf.render g)) (found.map Prod.snd)) :
    List.Forall₂ (fun l c => source.slice? c.2.span.start c.2.span.stop = some l.content)
      leaves found := by
  have hlen := h.length_eq
  rw [List.length_map, List.length_map] at hlen
  refine List.forall₂_iff_get.2 ⟨hlen.symm, ?_⟩
  intro k hl hf
  refine h.slice_eq k (Leaf.render g leaves[k]) found[k].2 ?_ ?_
  · rw [List.getElem?_map, List.getElem?_eq_getElem hl]; rfl
  · rw [List.getElem?_map, List.getElem?_eq_getElem hf]; rfl

/-- The layout of one area, written between `before` and `after`. -/
theorem Area.fits_layout (g : OutputGrammar) (a : Area) (before after : Text) :
    Bounds.Fits g (before ++ ((a.render g).text ++ after)) a
      ⟨a.id, (a.render g).rangeBehind before, (a.children.map Leaf.id).zip
        (Rendered.ranges (before ++ (a.render g).opening) (a.children.map (Leaf.render g)))⟩ := by
  have hlen : (a.children.map Leaf.id).length =
      (Rendered.ranges (before ++ (a.render g).opening)
        (a.children.map (Leaf.render g))).length := by
    rw [Rendered.length_ranges, List.length_map, List.length_map]
  have hsnd := List.map_snd_zip (Nat.le_of_eq hlen.symm)
  have hchildren : LaidOut (before ++ ((a.render g).text ++ after))
      (before ++ (a.render g).opening).utf8Length (a.children.map (Leaf.render g))
      (Rendered.ranges (before ++ (a.render g).opening) (a.children.map (Leaf.render g))) := by
    by_cases h : a.children = []
    · -- nothing is laid out, so nothing is asked
      rw [h]
      exact ⟨rfl, by simp, by simp, by simp, by simp [Rendered.ranges], .nil⟩
    · have h' := Rendered.laidOut_ranges (before ++ (a.render g).opening)
        ((a.render g).closing ++ after) (a.children.map (Leaf.render g))
      rw [← Area.body_render g a h] at h'
      simpa [Rendered.text] using h'
  refine ⟨rfl, List.map_fst_zip (Nat.le_of_eq hlen), ?_, ?_, ?_, ?_⟩
  · rw [hsnd]
    exact hchildren
  · intro r hr
    rw [hsnd] at hr
    refine ⟨Rendered.le_start_of_mem_ranges hr, ?_⟩
    have hstop := Rendered.stop_le_of_mem_ranges hr
    -- a child has a range, so there are children and the content is what they are written as
    have hne : a.children ≠ [] := by
      intro h
      simp [h, Rendered.ranges] at hr
    rw [← Rendered.utf8Length_write, ← Area.body_render g a hne] at hstop
    show r.span.stop ≤ (before ++ (a.render g).opening ++ (a.render g).body).utf8Length
    rwa [Text.utf8Length_append]
  · intro l hl
    subst hl
    have h := Text.slice?_append (before ++ (l.render g).opening) l.content
      ((l.render g).closing ++ after)
    have htext : before ++ ((l.render g).text ++ after) =
        before ++ (l.render g).opening ++ l.content ++ ((l.render g).closing ++ after) := by
      rw [Rendered.text, show (l.render g).body = l.content from rfl]
      simp only [List.append_assoc]
    rwa [← htext, ← Text.utf8Length_append] at h
  · rw [← hsnd] at hchildren
    exact LaidOut.slice_content hchildren

/-- The layout of areas fits each of them. -/
theorem Area.forall₂_fits_layout (g : OutputGrammar) (areas : List Area) (before after : Text) :
    List.Forall₂
      (Bounds.Fits g (before ++ (Rendered.write (areas.map (Area.render g)) ++ after)))
      areas (Area.layout g before areas) := by
  induction areas generalizing before with
  | nil => exact .nil
  | cons a rest ih =>
    rw [List.map_cons, Rendered.write_cons, List.append_assoc]
    refine .cons (Area.fits_layout g a before _) ?_
    have h := ih (before ++ (a.render g).text)
    rwa [List.append_assoc] at h

theorem Area.ranges_layout (g : OutputGrammar) (areas : List Area) (before : Text) :
    (Area.layout g before areas).map Bounds.range =
      Rendered.ranges before (areas.map (Area.render g)) := by
  induction areas generalizing before with
  | nil => rfl
  | cons a rest ih =>
    show _ :: _ = _ :: _
    rw [ih]

/-- The search finds bounds for every list of areas in every grammar. The areas are laid out from
    the start of their written form, and the children of each from where its content begins. -/
theorem Area.bounds_laidOut (g : OutputGrammar) (areas : List Area) :
    ∃ table, Area.bounds g areas = .ok table ∧
      LaidOut (Area.write g areas) 0 (areas.map (Area.render g)) (table.areas.map Bounds.range) ∧
      List.Forall₂ (Bounds.Fits g (Area.write g areas)) areas table.areas := by
  have hwrite : Area.write g areas =
      [] ++ (Rendered.write (areas.map (Area.render g)) ++ []) := by
    rw [Area.write_eq, List.append_nil, List.nil_append]
  refine ⟨⟨Area.layout g [] areas⟩, Area.bounds_eq_ok g areas, ?_, ?_⟩
  · rw [hwrite, Area.ranges_layout]
    exact Rendered.laidOut_ranges [] [] (areas.map (Area.render g))
  · rw [hwrite]
    exact Area.forall₂_fits_layout g areas [] []

end Worksheet
