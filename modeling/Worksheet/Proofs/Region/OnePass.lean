import Worksheet.Proofs.Area.Numbering
import Worksheet.Proofs.Region.Seam

/-! # Regions in one pass

  Areas can be given identifiers while the text is still being cut: each time a region has been
  found, one is drawn for the text before it and one for the region, and what is inside a container
  is gone through before the text behind it. Inside a container no further container is built, so
  nothing that is found there is lost when only the leaves of it are kept. So the areas and the
  counter are those of reading first and numbering afterwards (`RegionGrammar.scan_eq`).
-/

namespace Worksheet

/-- What is inside a region. -/
def Segment.inside : Segment → Text
  | plain text => text
  | region _ _ _ inner _ => inner

theorem Rule.exists_region_eq (r : Rule) (start : Match) : ∃ inner closing,
    (r.region start).1 = .region r.kind start.title start.lexeme inner closing := by
  unfold region
  split
  · next inner stop _ => exact ⟨inner, some stop.lexeme, rfl⟩
  · exact ⟨start.rest, none, rfl⟩

theorem Rule.length_inside_le (r : Rule) (start : Match) :
    (r.region start).1.inside.length ≤ start.rest.length := by
  unfold region
  split
  · next inner stop h =>
    have hlength := congrArg List.length (Rule.eq_append_of_close? h)
    simp only [List.length_append] at hlength
    show inner.length ≤ _
    omega
  · exact Nat.le_refl _

/-- The heading of a container that a region is read as. -/
def RegionKind.heading (title : Text) : RegionKind → Heading
  | collapsible => .collapsible title
  | _ => .input .unattempted

namespace RegionGrammar

/-! ### Scanning -/

theorem length_rest_lt {g : RegionGrammar} {s before : Text} {r : Rule} {start : Match}
    (h : g.nextOpening? s = some (before, r, start)) : start.rest.length < s.length := by
  obtain ⟨hs, hne⟩ := eq_append_of_nextOpening? h
  have hlength := congrArg List.length hs
  have hpos := List.length_pos_iff.2 hne
  simp only [List.length_append] at hlength
  omega

/-- Draws an identifier for the text between regions, unless there is none. -/
def drawBetween (g : RegionGrammar) (s : Text) (ids : IdCounter) : List Area × IdCounter :=
  if s = [] then ([], ids) else ([.leaf ⟨ids.fresh.1, g.between, s, none⟩], ids.fresh.2)

/-- Goes through a text from left to right and draws an identifier for every area as soon as it is
    found. A container draws its own before its inside is gone through. Where the text is the inside
    of a container, a container in it becomes prose. -/
def scan (g : RegionGrammar) (nested : Bool) (s : Text) (ids : IdCounter) :
    List Area × IdCounter :=
  match _h : g.nextOpening? s with
  | none => g.drawBetween s ids
  | some (before, r, start) =>
    let (between, ids) := g.drawBetween before ids
    let (id, ids) := ids.fresh
    let region := (r.region start).1
    let (area, ids) : Area × IdCounter :=
      match r.kind with
      | .leaf kind => (.leaf ⟨id, kind, region.inside, none⟩, ids)
      | container =>
        if nested then (.leaf ⟨id, .text, region.text, none⟩, ids)
        else
          let (inside, ids) := g.scan true region.inside ids
          let leaves := inside.filterMap fun a => a.toLeaf.toOption
          (.container ⟨id, container.heading start.title, leaves, none⟩, ids)
    let (others, ids) := g.scan nested (r.region start).2 ids
    (between ++ area :: others, ids)
termination_by s.length
decreasing_by
  · exact Nat.lt_of_le_of_lt (r.length_inside_le start) (length_rest_lt _h)
  · exact Nat.lt_of_le_of_lt (r.length_region_le start) (length_rest_lt _h)

/-! ### Scanning and numbering -/

/-- A segment as an area, or as the leaf that it becomes inside a container. -/
def shapeAt (g : RegionGrammar) (nested : Bool) (segment : Segment) : Shape :=
  if nested then .leaf (g.leafShape segment) else g.shape segment

theorem drawBetween_eq (g : RegionGrammar) (nested : Bool) (s : Text) (ids : IdCounter) :
    g.drawBetween s ids = Area.number ((Segment.plain? s).map (g.shapeAt nested)) ids := by
  unfold drawBetween Segment.plain?
  by_cases hs : s = []
  · rw [if_pos hs, if_pos hs]
    rfl
  · rw [if_neg hs, if_neg hs]
    cases nested <;> rfl

/-- All of the leaves that were numbered are kept. -/
theorem filterMap_toLeaf_number (leaves : List LeafShape) (ids : IdCounter) :
    (Area.number (leaves.map Shape.leaf) ids).1.filterMap (fun a => a.toLeaf.toOption) =
      (Leaf.number leaves ids).1 := by
  rw [Area.number_map_leaf, List.filterMap_map]
  exact List.filterMap_some

/-- What is kept of the inside of a container is what is numbered inside it. -/
theorem number_leaves (g : RegionGrammar) (inside : Text) (ids : IdCounter) :
    let areas := Area.number ((g.segments inside).map (g.shapeAt true)) ids
    (areas.1.filterMap (fun a => a.toLeaf.toOption), areas.2) =
      Leaf.number (g.leaves inside) ids := by
  intro areas
  have hareas : areas = Area.number ((g.leaves inside).map Shape.leaf) ids := by
    simp only [areas, leaves, List.map_map]
    rfl
  rw [hareas, filterMap_toLeaf_number, Area.number_map_leaf]

/-- The identifiers of a region are drawn for it and then for what is inside. -/
theorem numberOne_region (g : RegionGrammar) (nested : Bool) (kind : RegionKind)
    (title opening inner : Text) (closing : Option Text) (ids : IdCounter) :
    Area.numberOne (g.shapeAt nested (.region kind title opening inner closing)) ids =
      match kind with
      | .leaf kind => (.leaf ⟨ids.fresh.1, kind, inner, none⟩, ids.fresh.2)
      | container =>
        if nested then
          (.leaf ⟨ids.fresh.1, .text, opening ++ inner ++ closing.getD [], none⟩, ids.fresh.2)
        else
          let leaves := Leaf.number (g.leaves inner) ids.fresh.2
          (.container ⟨ids.fresh.1, container.heading title, leaves.1, none⟩, leaves.2) := by
  cases kind <;> cases nested <;> rfl

/-- Drawing identifiers while a text is cut gives the same areas as numbering what has been read, and
    leaves the same counter. -/
theorem scan_eq (g : RegionGrammar) (nested : Bool) (s : Text) (ids : IdCounter) :
    g.scan nested s ids = Area.number ((g.segments s).map (g.shapeAt nested)) ids := by
  fun_induction scan g nested s ids with
  | case1 nested s ids h =>
    rw [segments_of_nextOpening?_eq_none h, drawBetween_eq g nested]
  | case2 nested s ids before r start h between ids₁ hbetween id ids₂ hfresh region area ids₃ harea
      others ids₄ hothers ih_inside ih_others =>
    have hregion : Area.numberOne (g.shapeAt nested (r.region start).1) ids₁ = (area, ids₃) := by
      obtain ⟨inner, closing, heq⟩ := r.exists_region_eq start
      have hinside : region = .region r.kind start.title start.lexeme inner closing := heq
      have hleaves := g.number_leaves inner ids₂
      rw [← harea, ih_inside, heq, numberOne_region, hfresh, hinside]
      simp only [Segment.inside, ← hleaves]
      rfl
    rw [segments_of_nextOpening? h, List.map_append, List.map_cons, Area.number_append,
      ← drawBetween_eq, hbetween]
    simp only [Area.number, hregion, ← ih_others, hothers]

end RegionGrammar

end Worksheet
