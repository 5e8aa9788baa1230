import Mathlib.Tactic.SplitIfs
import Worksheet.Proofs.Editor.Fields
import Worksheet.Proofs.Json.RoundTrip

/-! # Snapshots are read as the trees they were taken of

  Whatever a node holds is written, and what is left out is what a missing field is read as. So a
  tree comes back from its snapshot, as a value or as a text, in whatever order fields arrive
  (`EditorNode.node?_eq`). Only depth can be in the way: each generation of nodes takes two levels
  of arrays and objects, and the readers have levels for 64 generations. There is no snapshot of any
  form that they would read as a deeper tree (`EditorNode.exists_ofJson?_eq_iff`).
-/

namespace Worksheet

namespace EditorNode

open Snapshot

/-! ### Generations -/

mutual

/-- How many generations of nodes a tree has. -/
def generations : EditorNode → Nat
  | ⟨_, _, _, _, _, children⟩ => generationsIn children + 1

/-- How many generations of nodes several trees have. -/
def generationsIn : List EditorNode → Nat
  | [] => 0
  | n :: rest => max n.generations (generationsIn rest)

end

theorem generations_eq (n : EditorNode) : n.generations = generationsIn n.children + 1 := by
  cases n
  rw [generations]

theorem generations_pos (n : EditorNode) : 0 < n.generations := by
  rw [generations_eq]
  exact Nat.succ_pos _

theorem generationsIn_pos {nodes : List EditorNode} (h : nodes ≠ []) : 0 < generationsIn nodes := by
  obtain ⟨n, rest, rfl⟩ := List.exists_cons_of_ne_nil h
  have hn := n.generations_pos
  rw [generationsIn]
  omega

theorem generationsIn_le {nodes : List EditorNode} {k : Nat}
    (h : ∀ n ∈ nodes, n.generations ≤ k) : generationsIn nodes ≤ k := by
  induction nodes with
  | nil => exact Nat.zero_le k
  | cons n rest ih =>
    rw [generationsIn]
    exact Nat.max_le.2 ⟨h n List.mem_cons_self, ih fun m hm => h m (List.mem_cons_of_mem n hm)⟩

theorem sizeOf_lt_of_mem_children {c n : EditorNode} (h : c ∈ n.children) :
    sizeOf c < sizeOf n := by
  obtain ⟨kind, id, text, source, status, children⟩ := n
  have hlt : sizeOf c < sizeOf children := List.sizeOf_lt_of_mem h
  rw [EditorNode.mk.sizeOf_spec]
  omega

/-- What holds of a node whenever it holds of its children, holds of all trees. -/
theorem of_children {motive : EditorNode → Prop}
    (step : ∀ n : EditorNode, (∀ c ∈ n.children, motive c) → motive n) (n : EditorNode) :
    motive n :=
  step n fun c _ => of_children step c
termination_by sizeOf n
decreasing_by exact sizeOf_lt_of_mem_children ‹_›

/-! ### What is written -/

/-- The fields of a node that are written: its kind, and the others that hold something. -/
def written (n : EditorNode) : Fields where
  kind := some (.ofText n.kind.name.toList)
  id := n.id.map fun id => .nat id.val
  text := if n.text = [] then none else some (.ofText n.text)
  source := n.source.map .ofText
  status := n.status.map fun grade => .ofText grade.name.toList
  children := if n.children = [] then none else some (.arr (n.children.map toJson))

theorem listToJson_eq (nodes : List EditorNode) : listToJson nodes = nodes.map toJson := by
  induction nodes with
  | nil => rfl
  | cons n rest ih => rw [listToJson, ih, List.map_cons]

theorem toJson_eq (n : EditorNode) : n.toJson = .object n.written.entries := by
  obtain ⟨kind, id, text, source, status, children⟩ := n
  rw [toJson, listToJson_eq]
  apply congrArg Json.object
  simp [Fields.entries, Fields.names, Fields.value?, written, Option.toList_map, Function.comp_def,
    apply_ite Option.toList, apply_ite (List.map _)]

/-- What is written for a field is a text, a number or the list of the children. -/
theorem written_cases {n : EditorNode} {name : String} {v : Json}
    (h : v ∈ n.written.value? name) :
    (∃ s, v = .ofText s) ∨ (∃ k, v = .nat k) ∨
      name = "children" ∧ v = .arr (n.children.map toJson) := by
  -- one case for each field; the text and the children may be left out
  simp only [Fields.value?, written] at h
  split_ifs at h with _ _ _ _ _ _ hchildren
  · cases h
    exact .inl ⟨_, rfl⟩
  · obtain ⟨id, -, rfl⟩ := Option.map_eq_some_iff.1 h
    exact .inr (.inl ⟨_, rfl⟩)
  · cases h
  · cases h
    exact .inl ⟨_, rfl⟩
  · obtain ⟨text, -, rfl⟩ := Option.map_eq_some_iff.1 h
    exact .inl ⟨_, rfl⟩
  · obtain ⟨grade, -, rfl⟩ := Option.map_eq_some_iff.1 h
    exact .inl ⟨_, rfl⟩
  · cases h
  · cases h
    exact .inr (.inr ⟨hchildren, rfl⟩)
  · cases h

theorem levels_written {n : EditorNode} {name : String} (hname : name ≠ "children") :
    ∀ v ∈ n.written.value? name, v.levels = 0 := by
  intro v hv
  rcases written_cases hv with ⟨s, rfl⟩ | ⟨k, rfl⟩ | ⟨h, -⟩
  · rfl
  · rfl
  · exact absurd h hname

theorem levelsIn_map_toJson {nodes : List EditorNode}
    (h : ∀ c ∈ nodes, c.toJson.levels + 1 = 2 * c.generations) :
    Json.levelsIn (nodes.map toJson) = 2 * generationsIn nodes - 1 := by
  induction nodes with
  | nil => rfl
  | cons c nodes ih =>
    have hc := h c List.mem_cons_self
    rw [List.map_cons, Json.levelsIn, ih fun c hc => h c (List.mem_cons_of_mem _ hc),
      generationsIn]
    omega

/-- Each generation of nodes takes a level for the nodes and one for the list of their children,
    which the last generation does without. -/
theorem levels_toJson (n : EditorNode) : n.toJson.levels + 1 = 2 * n.generations := by
  induction n using of_children with
  | step n ih =>
    rw [toJson_eq, Fields.levels_object_entries fun name hname => levels_written hname,
      generations_eq]
    -- the list of the children is left out if there are none, and then it takes no level
    by_cases hnone : n.children = []
    · simp [written, hnone, generationsIn]
    · have hlist : n.written.children = some (.arr (n.children.map toJson)) := if_neg hnone
      have hpos := generationsIn_pos hnone
      rw [hlist]
      show Json.levelsIn (n.children.map toJson) + 1 + 1 + 1 = _
      rw [levelsIn_map_toJson ih]
      omega

theorem printable_toJson (n : EditorNode) : n.toJson.Printable := by
  induction n using of_children with
  | step n ih =>
    rw [toJson_eq]
    apply Json.Printable.obj
    · intro f hf
      exact (Fields.exists_of_mem_keyed_entries hf).1
    · intro f hf
      obtain ⟨-, name, hvalue⟩ := Fields.exists_of_mem_keyed_entries hf
      rcases written_cases hvalue with ⟨s, hs⟩ | ⟨k, hk⟩ | ⟨-, hchildren⟩
      · rw [hs]
        exact .str s
      · rw [hk]
        exact .nat k
      · rw [hchildren]
        apply Json.Printable.arr
        intro v hv
        obtain ⟨c, hc, rfl⟩ := List.mem_map.1 hv
        exact ih c hc

/-! ### Reading the fields -/

theorem kind?_name (levels : Nat) (kind : NodeKind) :
    kind? levels (.ofText kind.name.toList) = some kind := by
  cases kind <;> rfl

theorem status?_name (levels : Nat) (grade : Grade) :
    status? levels (.ofText grade.name.toList) = some grade := by
  cases grade <;> rfl

theorem id?_val (id : AreaId) : id? (.nat id.val) = some id := by
  rw [id?, AreaId.ofNat?, dif_pos id.val_lt]

theorem text?_ofText (text : Text) : text? (.ofText text) = some text := by
  rfl

/-- A field that is missing is read as an empty text. -/
theorem defaulted?_text (text : Text) :
    defaulted? [] text? (if text = [] then none else some (.ofText text)) = some text := by
  by_cases h : text = []
  · rw [if_pos h, h, defaulted?]
  · rw [if_neg h, defaulted?, text?_ofText]

/-- A field that is missing is read as nothing, and one that is written as what it holds. -/
theorem defaulted?_optional? {α : Type} {read : Json → Option α} {write : α → Json}
    (h : ∀ a, read (write a) = some a) (hnull : ∀ a, write a ≠ .null) (value : Option α) :
    defaulted? none (optional? read) (value.map write) = some value := by
  cases value with
  | none => rfl
  | some a =>
    show optional? read (write a) = _
    rw [optional?, h]
    · rfl
    · exact hnull a

/-- In whatever order the fields of a node arrive, all of them are found. The values among its
    children may be rearranged in their turn. -/
theorem exists_of?_eq {n : EditorNode} {v : Json} (h : v.Rearranged n.toJson) :
    ∃ children, Fields.of? v = some { n.written with children } ∧
      Option.Rel Json.Rearranged children n.written.children := by
  rw [toJson_eq] at h
  obtain ⟨table, hof, hrel⟩ := Fields.exists_of_rearranged h
  have hsame : ∀ name ∈ Fields.names, name ≠ "children" → table name = n.written.value? name :=
    fun name hname hne => Json.eq_of_rel (hrel name hname) (levels_written hne)
  refine ⟨table "children", ?_, hrel "children" (by decide)⟩
  rw [hof, Fields.ofTable, hsame "kind" (by decide) (by decide), hsame "id" (by decide) (by decide),
    hsame "text" (by decide) (by decide), hsame "original" (by decide) (by decide),
    hsame "status" (by decide) (by decide)]
  rfl

/-! ### Reading the children -/

/-- Nodes are read one by one, and all of them have to fit. -/
theorem mapM_node?_eq {levels : Nat} {nodes : List EditorNode} {items : List Json}
    (hitems : List.Forall₂ Json.Rearranged items (nodes.map toJson))
    (h : ∀ c ∈ nodes, ∀ v, v.Rearranged c.toJson →
      node? levels v = if 2 * c.generations ≤ levels + 1 then some c else none) :
    items.mapM (node? levels) =
      if 2 * generationsIn nodes ≤ levels + 1 then some nodes else none := by
  induction nodes generalizing items with
  | nil =>
    obtain rfl := List.forall₂_nil_right_iff.1 hitems
    rfl
  | cons c nodes ih =>
    obtain ⟨v, items, hv, hrest, rfl⟩ := List.forall₂_cons_right_iff.1 hitems
    rw [List.mapM_cons, h c List.mem_cons_self v hv,
      ih hrest fun c hc => h c (List.mem_cons_of_mem _ hc), generationsIn]
    by_cases hc : 2 * c.generations ≤ levels + 1
    · by_cases hnodes : 2 * generationsIn nodes ≤ levels + 1
      · rw [if_pos hc, if_pos hnodes, if_pos (by omega)]
        rfl
      · rw [if_pos hc, if_neg hnodes, if_neg (by omega)]
        rfl
    · have hmax : ¬ 2 * max c.generations (generationsIn nodes) ≤ levels + 1 := by omega
      rw [if_neg hc, if_neg hmax]
      rfl

/-- The children of a node are read if there are levels enough for them. A node without children
    needs none. -/
theorem children?_eq {n : EditorNode} {value : Option Json}
    (hvalue : Option.Rel Json.Rearranged value n.written.children) {levels : Nat}
    (h : ∀ c ∈ n.children, ∀ levels v, v.Rearranged c.toJson →
      node? levels v = if 2 * c.generations ≤ levels + 1 then some c else none) :
    children? levels value =
      if 2 * generationsIn n.children ≤ levels then some n.children else none := by
  by_cases hnone : n.children = []
  · have hmissing : n.written.children = none := if_pos hnone
    rw [hmissing] at hvalue
    cases hvalue
    rw [children?, hnone, generationsIn, if_pos (Nat.zero_le _)]
  · have hlist : n.written.children = some (.arr (n.children.map toJson)) := if_neg hnone
    obtain ⟨items, rfl, hitems⟩ : ∃ items, value = some (.arr items) ∧
        List.Forall₂ Json.Rearranged items (n.children.map toJson) := by
      rw [hlist] at hvalue
      cases value with
      | none => exact nomatch hvalue
      | some v =>
        cases hvalue with
        | some harr =>
          obtain ⟨items, rfl, hitems⟩ := harr.exists_items
          exact ⟨items, rfl, hitems⟩
    have hpos := generationsIn_pos hnone
    cases levels with
    | zero =>
      -- an array takes a level
      rw [children?, if_neg (by omega)]
      nofun
    | succ levels =>
      rw [children?]
      exact mapM_node?_eq hitems fun c hc => h c hc levels

/-! ### Reading a tree -/

/-- A reader gives a tree back if it has levels enough for it, and refuses it otherwise. -/
theorem node?_eq (n : EditorNode) : ∀ levels v, v.Rearranged n.toJson →
    node? levels v = if 2 * n.generations ≤ levels + 1 then some n else none := by
  induction n using of_children with
  | step n ih =>
    intro levels v hv
    obtain ⟨children, hof, hrel⟩ := exists_of?_eq hv
    rw [generations_eq]
    cases levels with
    | zero =>
      rw [node?, if_neg]
      omega
    | succ levels =>
      have hid := defaulted?_optional? id?_val nofun n.id
      have hsource := defaulted?_optional? text?_ofText nofun n.source
      have hstatus := defaulted?_optional? (status?_name levels) nofun n.status
      rw [node?, hof]
      simp only [Option.bind_eq_bind, Option.bind_some, children?_eq hrel ih]
      simp only [written, Option.bind_some, kind?_name, hid, defaulted?_text, hsource, hstatus]
      -- the children have two levels less, since the node and their list take one each
      by_cases hfits : 2 * generationsIn n.children ≤ levels
      · rw [if_pos hfits, if_pos (by omega)]
        cases n
        rfl
      · rw [if_neg hfits, if_neg (by omega)]
        rfl

/-! ### Trees that can be read at all -/

theorem exists_of_mapM {α β : Type} {read : α → Option β} {xs : List α} {ys : List β}
    (h : xs.mapM read = some ys) : ∀ y ∈ ys, ∃ x ∈ xs, read x = some y := by
  induction xs generalizing ys with
  | nil =>
    cases h
    nofun
  | cons x xs ih =>
    simp only [List.mapM_cons, Option.bind_eq_bind, Option.bind_eq_some_iff] at h
    obtain ⟨y, hy, rest, hrest, heq⟩ := h
    cases heq
    intro z hz
    rcases List.mem_cons.1 hz with rfl | hz
    · exact ⟨x, List.mem_cons_self, hy⟩
    · obtain ⟨w, hw, hread⟩ := ih hrest z hz
      exact ⟨w, List.mem_cons_of_mem _ hw, hread⟩

theorem exists_of_children? {levels : Nat} {value : Option Json} {children : List EditorNode}
    (h : children? levels value = some children) :
    ∀ c ∈ children, ∃ inner item, levels = inner + 1 ∧ node? inner item = some c := by
  intro c hc
  unfold children? at h
  split at h
  case h_1 =>
    cases h
    exact nomatch hc
  case h_2 inner items =>
    obtain ⟨item, -, hitem⟩ := exists_of_mapM h c hc
    exact ⟨inner, item, rfl, hitem⟩
  case h_3 => exact nomatch h

/-- Whatever is read, the tree takes no more levels than there are. -/
theorem generations_le_of_node? {levels : Nat} {v : Json} {n : EditorNode}
    (h : node? levels v = some n) : 2 * n.generations ≤ levels + 1 := by
  -- the induction is on the levels, of which the children have two less, as far as they are read
  induction levels using Nat.strongRecOn generalizing v n with
  | _ levels ih =>
    cases levels with
    | zero =>
      rw [node?] at h
      exact nomatch h
    | succ levels =>
      rw [node?] at h
      simp only [Option.bind_eq_bind, Option.bind_eq_some_iff] at h
      obtain ⟨f, -, kind, -, id, -, text, -, source, -, status, -, children, hchildren, heq⟩ := h
      cases heq
      have hle : generationsIn children ≤ levels / 2 := by
        apply generationsIn_le
        intro c hc
        obtain ⟨inner, item, rfl, hitem⟩ := exists_of_children? hchildren c hc
        have hinner := ih inner (by omega) hitem
        omega
      rw [generations]
      omega

theorem ofJson?_eq (n : EditorNode) {v : Json} (h : v.Rearranged n.toJson)
    (hfits : n.generations ≤ 64) : ofJson? v = some n := by
  rw [ofJson?, node?_eq n depth v h, if_pos]
  rw [depth]
  omega

/-- There is a snapshot of a tree if and only if the tree has no more than 64 generations. -/
theorem exists_ofJson?_eq_iff (n : EditorNode) :
    (∃ v, ofJson? v = some n) ↔ n.generations ≤ 64 := by
  constructor
  · rintro ⟨v, hv⟩
    have hle := generations_le_of_node? hv
    rw [depth] at hle
    omega
  · intro hfits
    exact ⟨n.toJson, n.ofJson?_eq (.refl _) hfits⟩

/-! ### What becomes of a tree -/

/-- What is promised about a tree of which a snapshot is written and read. -/
structure ReadsBack (n : EditorNode) : Prop where
  /-- The kind of a node is written, and each other field that holds something. The rest is left
      out. -/
  of?_toJson : Fields.of? n.toJson = some n.written
  /-- A reader gives the tree back if it has levels enough for the snapshot, and refuses it
      otherwise, in whatever order fields arrive. -/
  node?_eq : ∀ levels v, v.Rearranged n.toJson →
    node? levels v = if n.toJson.levels ≤ levels then some n else none
  /-- The tree has a snapshot of some form that is accepted if and only if it has no more than 64
      generations. -/
  accepted_iff : (∃ v, ofJson? v = some n) ↔ n.generations ≤ 64
  /-- If it has one at all, the tree is read from what is written, -/
  ofJson?_eq : (∃ v, ofJson? v = some n) → ∀ v, v.Rearranged n.toJson → ofJson? v = some n
  /-- from its text as well, -/
  parse?_eq : (∃ v, ofJson? v = some n) → ∀ level, parse? (n.toJson.pretty level) = some n
  /-- and the areas that are extracted then, and the counter in the end, are those of the tree. -/
  extract_eq : (∃ v, ofJson? v = some n) → ∀ v, v.Rearranged n.toJson → ∀ ids,
    (ofJson? v).map (·.extract ids) = some (n.extract ids)

/-- Every tree comes back from its snapshot, unless it is deeper than any tree that can be read. -/
theorem readsBack_toJson (n : EditorNode) : n.ReadsBack := by
  have hread : (∃ v, ofJson? v = some n) → ∀ v, v.Rearranged n.toJson → ofJson? v = some n :=
    fun haccepted v hv => n.ofJson?_eq hv (n.exists_ofJson?_eq_iff.1 haccepted)
  constructor
  case of?_toJson =>
    rw [toJson_eq]
    exact n.written.of?_object_entries
  case node?_eq =>
    intro levels v hv
    have hlevels := n.levels_toJson
    rw [n.node?_eq levels v hv]
    congr 1
    rw [eq_iff_iff]
    omega
  case accepted_iff => exact n.exists_ofJson?_eq_iff
  case ofJson?_eq => exact hread
  case parse?_eq =>
    intro haccepted level
    rw [parse?, Json.parse?_pretty n.printable_toJson level]
    exact hread haccepted _ (.refl _)
  case extract_eq =>
    intro haccepted v hv ids
    rw [hread haccepted v hv]
    rfl

/-- A text that was rendered from nothing is told apart from one without a source. -/
example : ofJson? (toJson { kind := .renderedText, text := ['a'], source := some [] }) =
    some { kind := .renderedText, text := ['a'], source := some [] } := by
  rfl

end EditorNode

end Worksheet
