import Worksheet.Proofs.Document.Ranges

/-! # Ranges of a document that is worked on

  A document is built from nothing by operations: areas are put in, added and edited, its ranges are
  found, its grammar is changed. Each operation either finds the ranges or takes them to be
  unknown. So wherever a document says that its ranges are valid, they are those that the search
  finds for the areas and the grammar of that moment (`Document.Honest`), and finding them once more
  changes nothing.
-/

namespace Worksheet

/-! ### Placing and dropping ranges twice -/

theorem Leaf.place_place (leaves : List Leaf) (found : List (AreaId × Range)) :
    Leaf.place (Leaf.place leaves found) found = Leaf.place leaves found := by
  induction leaves generalizing found with
  | nil => cases found <;> rfl
  | cons l rest ih =>
    cases found with
    | nil => rfl
    | cons b bs => simp [Leaf.place, ih]

theorem Area.place_place (areas : List Area) (found : List Bounds) :
    Area.place (Area.place areas found) found = Area.place areas found := by
  induction areas generalizing found with
  | nil => cases found <;> rfl
  | cons a rest ih =>
    cases found with
    | nil => cases a <;> rfl
    | cons b bs => cases a <;> simp [Area.place, ih, Leaf.place_place]

theorem Area.clearRanges_clearRanges (a : Area) : a.clearRanges.clearRanges = a.clearRanges := by
  cases a with
  | leaf l => rfl
  | container c =>
    show Area.container { c with range := none, children := (c.children.map _).map _ } = _
    rw [List.map_map]
    rfl

/-! ### Ranges in document order -/

/-- An area and its children report the ranges of the bounds that they carry. -/
theorem Area.ranges_of_carries {a : Area} {b : Bounds} (h : a.Carries b) (hid : b.id = a.id)
    (hids : b.children.map Prod.fst = a.children.map Leaf.id) :
    a.entries.map (fun e => (e.id, e.range)) =
      ((b.id, b.range) :: b.children).map fun found => (found.1, some found.2) := by
  have hchildren : a.children.map (fun l => (l.id, l.range)) =
      b.children.map fun found => (found.1, some found.2) := by
    rw [← List.zip_map', ← List.zip_map', h.2, hids]
  rw [List.map_cons, ← hchildren, hid, ← h.1]
  cases a with
  | leaf l => rfl
  | container c =>
    show _ :: (c.children.map (Entry.child c)).map _ = _
    rw [List.map_map]
    rfl

namespace Document

/-- Everything in the document reports its range, and these are the ranges that are found for the
    areas in the grammar, in the same order. -/
theorem HasBounds.ranges_eq {d : Document} (h : d.HasBounds) :
    ∃ table, Area.bounds d.grammar d.areas = .ok table ∧
      d.ranges = table.entries.map fun found => (found.1, some found.2) := by
  obtain ⟨table, hbounds, hcarries⟩ := h.carries
  refine ⟨table, hbounds, ?_⟩
  -- bounds also know whose they are
  rw [Area.bounds_eq_ok] at hbounds
  obtain rfl := Except.ok.inj hbounds
  have hfits := Area.forall₂_fits_layout d.grammar d.areas [] []
  have hentries : List.Forall₂ (fun a b => a.entries.map (fun e => (e.id, e.range)) =
      ((b.id, b.range) :: b.children).map fun found => (found.1, some found.2))
      d.areas (Area.layout d.grammar [] d.areas) :=
    List.Forall₂.mp (fun a b hab hfit => Area.ranges_of_carries hab hfit.id_eq hfit.children_ids)
      hcarries hfits
  unfold ranges entries BoundsTable.entries
  rw [List.map_flatMap, List.map_flatMap, List.flatMap_def, List.flatMap_def]
  apply congrArg List.flatten
  rw [← List.forall₂_eq_eq_eq, List.forall₂_map_left_iff, List.forall₂_map_right_iff]
  exact hentries

/-! ### Operations -/

/-- A document without areas. -/
def blank (uri : Text) (grammar : OutputGrammar) : Document := { uri, grammar }

/-- What can be done to a document. -/
inductive Operation where
  /-- Other areas are put in place of all areas. -/
  | withAreas (areas : List Area)
  /-- An area is added at the end. -/
  | push (area : Area)
  /-- The list of areas is edited, in whatever way. -/
  | edit (change : List Area → List Area)
  /-- The ranges are found. -/
  | updateBounds
  /-- The grammar is changed. -/
  | setGrammar (grammar : OutputGrammar)

/-- The document after an operation. -/
def next (d : Document) : Operation → Document
  | .withAreas areas => d.withAreas areas
  | .push area => d.push area
  | .edit change => d.edit change
  | .updateBounds => d.updateBounds.1
  | .setGrammar grammar => (d.setGrammar grammar).1

/-- The document after several operations. -/
def after (d : Document) (operations : List Operation) : Document := operations.foldl next d

/-! ### Valid ranges are the right ones -/

/-- A document that takes its ranges to be valid has the ranges that are found for it. -/
def Honest (d : Document) : Prop := d.boundsValid = true → d.HasBounds

theorem honest_blank (uri : Text) (grammar : OutputGrammar) : (blank uri grammar).Honest := by
  intro hvalid
  exact nomatch hvalid

/-- A document that takes its ranges to be unknown promises nothing. -/
theorem honest_of_not_valid {d : Document} (h : d.boundsValid = false) : d.Honest := by
  intro hvalid
  exact nomatch h.symm.trans hvalid

/-- Every operation finds the ranges or takes them to be unknown, whatever they were before. -/
theorem honest_next (d : Document) (o : Operation) : (d.next o).Honest := by
  cases o with
  | withAreas areas => exact honest_of_not_valid rfl
  | push area => exact honest_of_not_valid rfl
  | edit change => exact honest_of_not_valid rfl
  | updateBounds =>
    intro _
    exact d.hasBounds_updateBounds
  | setGrammar grammar =>
    intro _
    exact hasBounds_updateBounds _

theorem Honest.after {d : Document} (h : d.Honest) (operations : List Operation) :
    (d.after operations).Honest := by
  induction operations generalizing d with
  | nil => exact h
  | cons o rest ih => exact ih (d.honest_next o)

/-! ### Finding ranges changes nothing else -/

/-- The documents agree in all but their ranges. -/
structure SameButRanges (d e : Document) : Prop where
  uri : d.uri = e.uri
  grammar : d.grammar = e.grammar
  /-- Identifiers, kinds, contents, headings, children and order are the same. -/
  areas : d.areas.map Area.clearRanges = e.areas.map Area.clearRanges

theorem sameButRanges_updateBounds (d : Document) : d.updateBounds.1.SameButRanges d := by
  rw [updateBounds_eq]
  exact ⟨rfl, rfl, Area.clearRanges_place _ _⟩

theorem sameButRanges_invalidate (d : Document) : d.invalidate.SameButRanges d := by
  refine ⟨rfl, rfl, ?_⟩
  show (d.areas.map Area.clearRanges).map Area.clearRanges = _
  rw [List.map_map]
  exact List.map_congr_left fun a _ => Area.clearRanges_clearRanges a

theorem SameButRanges.trans {d e f : Document} (h : d.SameButRanges e) (h' : e.SameButRanges f) :
    d.SameButRanges f :=
  ⟨h.uri.trans h'.uri, h.grammar.trans h'.grammar, h.areas.trans h'.areas⟩

/-- A change of the grammar changes the grammar and the ranges. -/
theorem sameButRanges_setGrammar (d : Document) (grammar : OutputGrammar) :
    (d.setGrammar grammar).1.SameButRanges { d with grammar } :=
  (sameButRanges_updateBounds _).trans (sameButRanges_invalidate _)

/-- Ranges that have been found are found again. -/
theorem updateBounds_updateBounds (d : Document) :
    d.updateBounds.1.updateBounds = d.updateBounds := by
  have hlayout : Area.layout d.grammar [] (Area.place d.areas (Area.layout d.grammar [] d.areas)) =
      Area.layout d.grammar [] d.areas :=
    Area.layout_congr (Area.sameButRanges_place d.areas _) []
  rw [updateBounds_eq d, updateBounds_eq]
  simp only [hlayout, Area.place_place]

/-! ### What is promised about ranges -/

/-- What is promised about the ranges of a document. -/
structure KeepsRanges (d : Document) : Prop where
  /-- Valid ranges are those that are found for the areas in the grammar: everything in the document
      reports one, in the order of the table. -/
  ranges_eq : d.boundsValid = true → ∃ table, Area.bounds d.grammar d.areas = .ok table ∧
    d.ranges = table.entries.map fun found => (found.1, some found.2)
  /-- Ranges are always found. -/
  update_valid : d.updateBounds.2 = none ∧ d.updateBounds.1.boundsValid = true
  /-- Finding them changes nothing else. -/
  update_same : d.updateBounds.1.SameButRanges d
  /-- Finding them once more changes nothing at all. -/
  update_update : d.updateBounds.1.updateBounds = d.updateBounds
  /-- So it is in every other grammar. -/
  setGrammar_valid : ∀ grammar, (d.setGrammar grammar).2 = none ∧
    (d.setGrammar grammar).1.boundsValid = true
  /-- A change of the grammar changes nothing but grammar and ranges. -/
  setGrammar_same : ∀ grammar, (d.setGrammar grammar).1.SameButRanges { d with grammar }

/-- Whatever is done to a document that was blank, its valid ranges are those of its areas in its
    grammar, and they can be found at any time without a change to anything else. -/
theorem keepsRanges_after (uri : Text) (grammar : OutputGrammar) (operations : List Operation) :
    ((blank uri grammar).after operations).KeepsRanges := by
  have hhonest := (honest_blank uri grammar).after operations
  constructor
  case ranges_eq =>
    intro hvalid
    exact (hhonest hvalid).ranges_eq
  case update_valid =>
    rw [updateBounds_eq]
    exact ⟨rfl, rfl⟩
  case update_same => exact sameButRanges_updateBounds _
  case update_update => exact updateBounds_updateBounds _
  case setGrammar_valid =>
    intro other
    unfold setGrammar
    rw [updateBounds_eq]
    exact ⟨rfl, rfl⟩
  case setGrammar_same =>
    intro other
    exact sameButRanges_setGrammar _ other

end Document

end Worksheet
