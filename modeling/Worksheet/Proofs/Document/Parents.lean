import Worksheet.Proofs.Document.Lookup

/-! # Parents

  Three lookups tell the container of a child. One takes the first child of the identifier, one finds
  the first area of the identifier and asks for its container, and the index has been filled from
  the first child to the last, so that the last one counts. All three go by the same list of
  children with their containers (`Document.parentPairs`), and where identifiers are distinct it
  makes no difference which is taken.
-/

namespace Worksheet

/-! ### The index -/

namespace ParentIndex

theorem get?_insert_self (t : ParentIndex) (child parent : AreaId) :
    (t.insert child parent).get? child = some parent := by
  simp [insert, get?]

theorem get?_insert_of_ne (t : ParentIndex) {child other : AreaId} (parent : AreaId)
    (h : other ≠ child) : (t.insert child parent).get? other = t.get? other := by
  unfold insert get?
  rw [List.find?_cons_of_neg (by simpa using Ne.symm h), List.find?_filter]
  congr 2
  funext p
  by_cases hp : p.1 = other
  · simp [hp, h]
  · simp [hp]

/-- A child that is new to the index makes it larger by one. -/
theorem size_insert (t : ParentIndex) {child : AreaId} (parent : AreaId)
    (h : t.get? child = none) : (t.insert child parent).size = t.size + 1 := by
  have hnew : ∀ p ∈ t.parents, p.1 ≠ child := by
    simpa [get?] using h
  have hfilter : t.parents.filter (·.1 ≠ child) = t.parents := by
    apply List.filter_eq_self.2
    intro p hp
    simpa using hnew p hp
  unfold insert size
  rw [hfilter, List.length_cons]

/-- Sets the containers of several children, from the left. -/
def insertAll (t : ParentIndex) (pairs : List (AreaId × AreaId)) : ParentIndex :=
  pairs.foldl (fun t p => t.insert p.1 p.2) t

/-- Of several pairs with one child the last one counts. -/
theorem get?_insertAll (t : ParentIndex) (pairs : List (AreaId × AreaId)) (id : AreaId) :
    (t.insertAll pairs).get? id =
      ((pairs.reverse.find? (·.1 = id)).map (·.2)).or (t.get? id) := by
  induction pairs generalizing t with
  | nil => rfl
  | cons p rest ih =>
    show ((t.insert p.1 p.2).insertAll rest).get? id = _
    rw [ih, List.reverse_cons, List.find?_append]
    cases rest.reverse.find? (·.1 = id) with
    | some q => rfl
    | none =>
      by_cases hp : p.1 = id
      · simp [hp, get?_insert_self]
      · simp [hp, get?_insert_of_ne t p.2 (Ne.symm hp)]

/-- Distinct children that are new to the index are counted each. -/
theorem size_insertAll (t : ParentIndex) {pairs : List (AreaId × AreaId)}
    (hdistinct : (pairs.map Prod.fst).Nodup) (hnew : ∀ p ∈ pairs, t.get? p.1 = none) :
    (t.insertAll pairs).size = t.size + pairs.length := by
  induction pairs generalizing t with
  | nil => rfl
  | cons p rest ih =>
    obtain ⟨hp, hrest⟩ := List.nodup_cons.1 hdistinct
    show ((t.insert p.1 p.2).insertAll rest).size = _
    rw [ih _ hrest, size_insert t p.2 (hnew p List.mem_cons_self), List.length_cons]
    · omega
    · intro q hq
      have hne : q.1 ≠ p.1 := fun heq => hp (heq ▸ List.mem_map_of_mem hq)
      rw [get?_insert_of_ne t p.2 hne]
      exact hnew q (List.mem_cons_of_mem p hq)

end ParentIndex

/-- An area with its container, if it is in one. -/
def Entry.pair? (e : Entry) : Option (AreaId × AreaId) := e.parent?.map (e.id, ·)

namespace Document

variable {d : Document}

/-! ### Children with their containers -/

/-- The children in document order, each with its container. -/
def parentPairs (d : Document) : List (AreaId × AreaId) := d.entries.filterMap Entry.pair?

theorem parentPairs_eq (d : Document) :
    d.parentPairs = d.areas.flatMap fun a => a.children.map fun l => (l.id, a.id) := by
  unfold parentPairs entries
  rw [List.filterMap_flatMap]
  congr 1
  funext a
  cases a with
  | leaf l => rfl
  | container c =>
    show (c.children.map (Entry.child c)).filterMap Entry.pair? = _
    rw [List.filterMap_map, ← List.filterMap_eq_map]
    rfl

theorem mem_parentPairs {p : AreaId × AreaId} :
    p ∈ d.parentPairs ↔ ∃ c, .container c ∈ d.areas ∧ ∃ l ∈ c.children, (l.id, c.id) = p := by
  rw [parentPairs_eq, List.mem_flatMap]
  constructor
  · rintro ⟨a, ha, hp⟩
    obtain ⟨l, hl, rfl⟩ := List.mem_map.1 hp
    cases a with
    | leaf l => exact nomatch hl
    | container c => exact ⟨c, ha, l, hl, rfl⟩
  · rintro ⟨c, hc, l, hl, rfl⟩
    exact ⟨.container c, hc, List.mem_map.2 ⟨l, hl, rfl⟩⟩

theorem length_parentPairs (d : Document) :
    d.parentPairs.length = (d.areas.flatMap Area.children).length := by
  rw [parentPairs_eq]
  simp only [List.length_flatMap, List.length_map]

/-- Distinct identifiers of areas are distinct identifiers of children. -/
theorem nodup_parentPairs (h : (d.entries.map Entry.id).Nodup) :
    (d.parentPairs.map Prod.fst).Nodup := by
  apply List.Nodup.sublist _ h
  unfold parentPairs
  generalize d.entries = es
  induction es with
  | nil => exact .slnil
  | cons e rest ih =>
    cases e with
    | top a => exact ih.cons a.id
    | child c l => exact ih.cons_cons l.id

/-! ### What each lookup takes -/

/-- The search for a container takes the first child. -/
theorem parentOf?_eq (d : Document) (id : AreaId) :
    d.parentOf? id = (d.parentPairs.find? (·.1 = id)).map (·.2) := by
  unfold parentOf? parentPairs
  generalize d.entries = es
  induction es with
  | nil => rfl
  | cons e rest ih =>
    cases e with
    | top a =>
      rw [List.findSome?_cons, List.filterMap_cons]
      simpa [Entry.parent?, Entry.pair?] using ih
    | child c l =>
      rw [List.findSome?_cons, List.filterMap_cons]
      by_cases hid : l.id = id
      · simp [Entry.parent?, Entry.pair?, Entry.id, hid]
      · simpa [Entry.parent?, Entry.pair?, Entry.id, hid] using ih

/-- The index is filled with the children from the first to the last. -/
theorem parentIndex_eq (d : Document) : d.parentIndex = .insertAll ⟨[]⟩ d.parentPairs := by
  unfold parentIndex ParentIndex.insertAll parentPairs
  rw [List.foldl_filterMap]
  congr 1
  funext t e
  cases e with
  | top a => rfl
  | child c l => rfl

/-- The index takes the last child. -/
theorem get?_parentIndex (d : Document) (id : AreaId) :
    d.parentIndex.get? id = (d.parentPairs.reverse.find? (·.1 = id)).map (·.2) := by
  rw [parentIndex_eq, ParentIndex.get?_insertAll]
  exact Option.or_none

/-- Among pairs with distinct children the last one of a child is the first one. -/
theorem find?_reverse_pairs {pairs : List (AreaId × AreaId)}
    (hdistinct : (pairs.map Prod.fst).Nodup) (id : AreaId) :
    pairs.reverse.find? (·.1 = id) = pairs.find? (·.1 = id) := by
  cases hfirst : pairs.find? (·.1 = id) with
  | none =>
    rw [List.find?_eq_none] at hfirst ⊢
    intro p hp
    exact hfirst p (List.mem_reverse.1 hp)
  | some p =>
    have hp := List.mem_of_find?_eq_some hfirst
    have hid : p.1 = id := by simpa using List.find?_some hfirst
    apply find?_of_unique (List.mem_reverse.2 hp) (decide_eq_true hid)
    intro q hq hqid
    exact List.inj_on_of_nodup_map hdistinct (List.mem_reverse.1 hq) hp
      ((of_decide_eq_true hqid).trans hid.symm)

/-- So the index answers what the search answers. -/
theorem get?_parentIndex_eq_parentOf? (h : (d.entries.map Entry.id).Nodup) (id : AreaId) :
    d.parentIndex.get? id = d.parentOf? id := by
  rw [get?_parentIndex, find?_reverse_pairs (nodup_parentPairs h), parentOf?_eq]

/-- The search answers the container of a child. -/
theorem parentOf?_of_child (h : (d.entries.map Entry.id).Nodup) {c : Container} {l : Leaf}
    (hc : .container c ∈ d.areas) (hl : l ∈ c.children) : d.parentOf? l.id = some c.id := by
  have hpair : (l.id, c.id) ∈ d.parentPairs := mem_parentPairs.2 ⟨c, hc, l, hl, rfl⟩
  have hfirst : d.parentPairs.find? (·.1 = l.id) = some (l.id, c.id) := by
    apply find?_of_unique hpair (decide_eq_true rfl)
    intro p hp hid
    exact List.inj_on_of_nodup_map (nodup_parentPairs h) hp hpair (of_decide_eq_true hid)
  rw [parentOf?_eq, hfirst]
  rfl

/-- The area that is found under the identifier of a child is the child, so its container is that of
    the child. -/
theorem parent?_find?_of_child (h : (d.entries.map Entry.id).Nodup) {c : Container} {l : Leaf}
    (hc : .container c ∈ d.areas) (hl : l ∈ c.children) :
    (d.find? l.id).bind Entry.parent? = some c.id := by
  have hmem : .child c l ∈ d.entries :=
    mem_entries.2 ⟨.container c, hc, List.mem_cons_of_mem _ (List.mem_map_of_mem hl)⟩
  have hfind : d.find? l.id = some (.child c l) := find?_of_mem h hmem
  rw [hfind]
  rfl

/-- The area that is found under an identifier of no child is in no container. -/
theorem parent?_find?_eq_none {id : AreaId} (h : ∀ p ∈ d.parentPairs, p.1 ≠ id) :
    (d.find? id).bind Entry.parent? = none := by
  unfold find?
  rw [Option.bind_eq_none_iff]
  intro e he
  have hid : e.id = id := by simpa using List.find?_some he
  cases e with
  | top a => rfl
  | child c l =>
    have hpair : (l.id, c.id) ∈ d.parentPairs :=
      List.mem_filterMap.2 ⟨.child c l, List.mem_of_find?_eq_some he, rfl⟩
    exact absurd hid (h _ hpair)

/-! ### Agreement -/

/-- What is promised about the three ways to find a container, and the index. -/
structure ParentsAgree (d : Document) : Prop where
  /-- For the identifier of a child all of them answer its container. -/
  of_child : ∀ c l, .container c ∈ d.areas → l ∈ c.children →
    d.parentOf? l.id = some c.id ∧ d.parentIndex.get? l.id = some c.id ∧
      (d.find? l.id).bind Entry.parent? = some c.id
  /-- For any other identifier none of them answers a container. -/
  of_not_child : ∀ id, (∀ c l, .container c ∈ d.areas → l ∈ c.children → l.id ≠ id) →
    d.parentOf? id = none ∧ d.parentIndex.get? id = none ∧
      (d.find? id).bind Entry.parent? = none
  /-- The index has one entry for each child. -/
  size_eq : d.parentIndex.size = (d.areas.flatMap Area.children).length

/-- Where the identifiers of areas and children are distinct, the lookups of a container agree. -/
theorem parents_agree (h : (d.entries.map Entry.id).Nodup) : d.ParentsAgree := by
  constructor
  case of_child =>
    intro c l hc hl
    have hparent := parentOf?_of_child h hc hl
    exact ⟨hparent, (get?_parentIndex_eq_parentOf? h l.id).trans hparent,
      parent?_find?_of_child h hc hl⟩
  case of_not_child =>
    intro id hid
    have hnone : ∀ p ∈ d.parentPairs, p.1 ≠ id := by
      intro p hp
      obtain ⟨c, hc, l, hl, rfl⟩ := mem_parentPairs.1 hp
      exact hid c l hc hl
    have hparent : d.parentOf? id = none := by
      rw [parentOf?_eq, Option.map_eq_none_iff, List.find?_eq_none]
      simpa using hnone
    exact ⟨hparent, (get?_parentIndex_eq_parentOf? h id).trans hparent,
      parent?_find?_eq_none hnone⟩
  case size_eq =>
    rw [parentIndex_eq, ParentIndex.size_insertAll _ (nodup_parentPairs h) fun _ _ => rfl,
      length_parentPairs]
    exact Nat.zero_add _

/-- A collapsible with two children, an input without any, and a leaf between them. -/
def filed : Document where
  uri := []
  areas := [
    .container ⟨⟨34, by decide⟩, .collapsible ['t'], [⟨⟨39, by decide⟩, .text, ['a'], none⟩,
      ⟨⟨32, by decide⟩, .code, ['b'], none⟩], none⟩,
    .leaf ⟨⟨37, by decide⟩, .math, ['c'], none⟩,
    .container ⟨.zero, .input .correct, [], none⟩]

theorem parents_agree_filed :
    (filed.entries.map Entry.id).Nodup ∧ filed.ParentsAgree ∧
      filed.parentOf? ⟨32, by decide⟩ = some ⟨34, by decide⟩ ∧
      filed.parentIndex.get? ⟨37, by decide⟩ = none ∧ filed.parentIndex.size = 2 := by
  have hids : (filed.entries.map Entry.id).Nodup := by decide
  exact ⟨hids, parents_agree hids, by decide, by decide, by decide⟩

/-- With a child of one identifier in two containers, the search takes the first container and the
    index the last. -/
example :
    let child : Leaf := ⟨⟨1, by decide⟩, .text, ['a'], none⟩
    let twins : Document := ⟨[], [.container ⟨⟨2, by decide⟩, .input .correct, [child], none⟩,
      .container ⟨⟨3, by decide⟩, .input .correct, [child], none⟩], .coq, false⟩
    twins.parentOf? child.id = some ⟨2, by decide⟩ ∧
      twins.parentIndex.get? child.id = some ⟨3, by decide⟩ := by
  decide

end Document

end Worksheet
