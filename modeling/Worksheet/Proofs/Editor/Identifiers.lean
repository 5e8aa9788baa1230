import Mathlib.Data.List.Nodup
import Mathlib.Data.List.ReduceOption
import Worksheet.Document
import Worksheet.Editor.Node
import Worksheet.Proofs.Area.Counter
import Worksheet.Proofs.Area.Numbering

/-! # Identifiers in a tree

  Extraction goes through a tree once. A node with an identifier keeps it, and a node without one
  gets the next identifier of the counter. The counter knows the identifiers that it has passed and
  not those to come, so a new identifier is above all earlier ones and may be one that a later node
  carries.

  - `IdCounter.claimAll` is what the walk does to the counter, apart from the tree.
  - `EditorNode.carried` is what the walk finds on the nodes, in its order.
  - The main statement says exactly when the areas in a tree have distinct identifiers. They do
    where the counter has passed every identifier in the tree, and they need not elsewhere
    (`EditorNode.extract_collides`).
-/

namespace Worksheet

/-! ### Claims -/

namespace IdCounter

/-- Whatever is claimed is observed, by a counter that may have handed it out before. -/
theorem exists_claim_eq_observe (ids : IdCounter) (carried : Option AreaId) :
    ∃ before : IdCounter, ids.next.val ≤ before.next.val ∧
      (ids.claim carried).2 = before.observe (ids.claim carried).1 := by
  cases carried with
  | none => exact ⟨ids.fresh.2, ids.next.val_le_succ, rfl⟩
  | some id => exact ⟨ids, Nat.le_refl _, rfl⟩

/-- A claim never winds the counter back. -/
theorem next_le_claim (ids : IdCounter) (carried : Option AreaId) :
    ids.next.val ≤ (ids.claim carried).2.next.val := by
  obtain ⟨before, hle, hobserve⟩ := ids.exists_claim_eq_observe carried
  rw [hobserve, val_next_observe]
  omega

/-- A claim takes the counter past the identifier that is claimed. -/
theorem lt_next_claim (ids : IdCounter) (carried : Option AreaId)
    (h : (ids.claim carried).1 ≠ .last) :
    (ids.claim carried).1.val < (ids.claim carried).2.next.val := by
  obtain ⟨before, -, hobserve⟩ := ids.exists_claim_eq_observe carried
  have hlt := AreaId.val_lt_succ h
  rw [hobserve, val_next_observe]
  omega

/-! ### Claims one after the other -/

/-- Claims identifiers from the left. -/
def claimAll (ids : IdCounter) : List (Option AreaId) → List AreaId × IdCounter
  | [] => ([], ids)
  | carried :: rest =>
    let (id, ids) := ids.claim carried
    let (others, ids) := ids.claimAll rest
    (id :: others, ids)

theorem claimAll_cons (ids : IdCounter) (c : Option AreaId) (rest : List (Option AreaId)) :
    ids.claimAll (c :: rest) =
      ((ids.claim c).1 :: ((ids.claim c).2.claimAll rest).1, ((ids.claim c).2.claimAll rest).2) :=
  rfl

theorem claimAll_append (ids : IdCounter) (xs ys : List (Option AreaId)) :
    ids.claimAll (xs ++ ys) =
      ((ids.claimAll xs).1 ++ ((ids.claimAll xs).2.claimAll ys).1,
        ((ids.claimAll xs).2.claimAll ys).2) := by
  induction xs generalizing ids with
  | nil => rfl
  | cons carried rest ih =>
    rw [List.cons_append, claimAll_cons, claimAll_cons, ih]
    rfl

/-- Whatever is claimed was carried, or it is new and not below the counter. -/
theorem carried_or_le_of_mem_claimAll {ids : IdCounter} {carried : List (Option AreaId)}
    {id : AreaId} (h : id ∈ (ids.claimAll carried).1) :
    some id ∈ carried ∨ ids.next.val ≤ id.val := by
  induction carried generalizing ids with
  | nil => exact nomatch h
  | cons c rest ih =>
    rw [claimAll_cons] at h
    rcases List.mem_cons.1 h with rfl | hrest
    · cases c with
      | none => exact .inr (Nat.le_refl _)
      | some id => exact .inl List.mem_cons_self
    · rcases ih hrest with hmem | hle
      · exact .inl (List.mem_cons_of_mem _ hmem)
      · exact .inr (Nat.le_trans (ids.next_le_claim c) hle)

theorem mem_claimAll_of_carried {ids : IdCounter} {carried : List (Option AreaId)} {id : AreaId}
    (h : some id ∈ carried) : id ∈ (ids.claimAll carried).1 := by
  induction carried generalizing ids with
  | nil => exact nomatch h
  | cons c rest ih =>
    rw [claimAll_cons]
    rcases List.mem_cons.1 h with rfl | hrest
    · exact List.mem_cons_self
    · exact List.mem_cons_of_mem _ (ih hrest)

/-- What is claimed is claimed again only by something that carries it. -/
theorem mem_claimAll_claim_iff {ids : IdCounter} {c : Option AreaId} {rest : List (Option AreaId)}
    (h : (ids.claim c).1 ≠ .last) :
    (ids.claim c).1 ∈ ((ids.claim c).2.claimAll rest).1 ↔ some (ids.claim c).1 ∈ rest := by
  constructor
  · intro hmem
    rcases carried_or_le_of_mem_claimAll hmem with hcarried | hle
    · exact hcarried
    · exact absurd hle (Nat.not_le_of_lt (ids.lt_next_claim c h))
  · exact mem_claimAll_of_carried

/-! ### When claims are distinct -/

/-- No identifier that is given to something without one is carried by anything later. -/
def Foresees (ids : IdCounter) (carried : List (Option AreaId)) : Prop :=
  ∀ before after, carried = before ++ none :: after →
    some (ids.claimAll before).2.next ∉ after

theorem foresees_cons {ids : IdCounter} {c : Option AreaId} {rest : List (Option AreaId)} :
    ids.Foresees (c :: rest) ↔
      (c = none → some ids.next ∉ rest) ∧ (ids.claim c).2.Foresees rest := by
  constructor
  · intro h
    refine ⟨?_, ?_⟩
    · intro hnone
      exact h [] rest (by rw [hnone]; rfl)
    · intro before after hrest
      exact h (c :: before) after (by rw [hrest]; rfl)
  · rintro ⟨hhead, hrest⟩ before after heq
    -- the thing without an identifier is the first one, or it is among the rest
    cases before with
    | nil =>
      obtain ⟨hc, rfl⟩ := List.cons.inj heq
      exact hhead hc
    | cons b before =>
      obtain ⟨rfl, hbehind⟩ := List.cons.inj heq
      exact hrest before after hbehind

/-- Where the identifiers that are carried are distinct, those that are claimed are distinct if and
    only if no new one is carried later. -/
theorem nodup_claimAll_iff {ids : IdCounter} {carried : List (Option AreaId)}
    (hdistinct : carried.reduceOption.Nodup) (hroom : .last ∉ (ids.claimAll carried).1) :
    (ids.claimAll carried).1.Nodup ↔ ids.Foresees carried := by
  induction carried generalizing ids with
  | nil => simp [claimAll, Foresees]
  | cons c rest ih =>
    rw [claimAll_cons] at hroom ⊢
    have hlast : (ids.claim c).1 ≠ .last := by
      intro heq
      exact hroom (heq ▸ List.mem_cons_self)
    have hrest : rest.reduceOption.Nodup := by
      cases c with
      | none => exact hdistinct
      | some own => exact (List.nodup_cons.1 hdistinct).2
    have hroom' : .last ∉ ((ids.claim c).2.claimAll rest).1 :=
      fun hmem => hroom (List.mem_cons_of_mem _ hmem)
    rw [List.nodup_cons, mem_claimAll_claim_iff hlast, ih hrest hroom', foresees_cons]
    apply and_congr_left
    intro _
    cases c with
    | none => exact ⟨fun h _ => h, fun h => h rfl⟩
    | some own =>
      -- an identifier that is carried is not carried once more
      have hown : some own ∉ rest := by
        intro hmem
        exact (List.nodup_cons.1 hdistinct).1 (List.reduceOption_mem_iff.2 hmem)
      exact ⟨fun _ h => (nomatch h), fun _ => hown⟩

theorem next_le_claimAll (ids : IdCounter) (carried : List (Option AreaId)) :
    ids.next.val ≤ (ids.claimAll carried).2.next.val := by
  induction carried generalizing ids with
  | nil => exact Nat.le_refl _
  | cons c rest ih => exact Nat.le_trans (ids.next_le_claim c) (ih _)

/-- A counter that has passed every identifier foresees them all. -/
theorem foresees_of_lt {ids : IdCounter} {carried : List (Option AreaId)}
    (h : ∀ id, some id ∈ carried → id.val < ids.next.val) : ids.Foresees carried := by
  rintro before after rfl hmem
  have hlt := h _ (List.mem_append_right before (List.mem_cons_of_mem _ hmem))
  exact absurd (ids.next_le_claimAll before) (Nat.not_le_of_lt hlt)

end IdCounter

namespace EditorNode

/-! ### What nodes carry -/

mutual

/-- The identifiers on a node and on all nodes below it. -/
def identifiers : EditorNode → List AreaId
  | ⟨_, own, _, _, _, children⟩ => own.toList ++ identifiersIn children

/-- The identifiers on several nodes and on all nodes below them. -/
def identifiersIn : List EditorNode → List AreaId
  | [] => []
  | n :: rest => n.identifiers ++ identifiersIn rest

end

/-- What a node carries that stands for a leaf. -/
def carriedByLeaf (n : EditorNode) : List (Option AreaId) := if n.leaf?.isSome then [n.id] else []

/-- What the leaves among nodes carry. -/
def carriedByLeaves (nodes : List EditorNode) : List (Option AreaId) := nodes.flatMap carriedByLeaf

/-- What the nodes carry that stand for areas, a container before the leaves inside it. Nodes that
    are skipped do not count. -/
def carried (nodes : List EditorNode) : List (Option AreaId) :=
  nodes.flatMap fun n =>
    match n.container? with
    | some (_, inside) => n.id :: carriedByLeaves inside
    | none => n.carriedByLeaf

/-- The leaves among nodes get the identifiers that are claimed for them. -/
theorem claimAll_carriedByLeaves (nodes : List EditorNode) (ids : IdCounter) :
    ids.claimAll (carriedByLeaves nodes) =
      ((leaves nodes ids).1.map Leaf.id, (leaves nodes ids).2) := by
  induction nodes generalizing ids with
  | nil => rfl
  | cons n rest ih =>
    rw [carriedByLeaves, List.flatMap_cons, ← carriedByLeaves, carriedByLeaf, leaves]
    cases n.leaf? with
    | none => exact ih ids
    | some shape =>
      show ids.claimAll (n.id :: carriedByLeaves rest) = _
      rw [IdCounter.claimAll_cons, ih]
      rfl

/-- The areas among nodes get the identifiers that are claimed for them. -/
theorem claimAll_carried (nodes : List EditorNode) (ids : IdCounter) :
    ids.claimAll (carried nodes) = ((areas nodes ids).1.flatMap Area.ids, (areas nodes ids).2) := by
  induction nodes generalizing ids with
  | nil => rfl
  | cons n rest ih =>
    rw [carried, List.flatMap_cons, ← carried, carriedByLeaf, areas]
    cases n.container? with
    | some c =>
      obtain ⟨heading, inside⟩ := c
      show ids.claimAll (n.id :: (carriedByLeaves inside ++ carried rest)) = _
      rw [IdCounter.claimAll_cons, IdCounter.claimAll_append, claimAll_carriedByLeaves, ih]
      rfl
    | none =>
      cases n.leaf? with
      | none => exact ih ids
      | some shape =>
        show ids.claimAll (n.id :: carried rest) = _
        rw [IdCounter.claimAll_cons, ih]
        rfl

/-! ### Only nodes that are kept carry anything -/

theorem identifiers_eq (n : EditorNode) :
    n.identifiers = n.id.toList ++ identifiersIn n.children := by
  cases n
  rw [identifiers]

theorem identifiers_sublist_of_mem {n : EditorNode} {nodes : List EditorNode} (h : n ∈ nodes) :
    n.identifiers.Sublist (identifiersIn nodes) := by
  induction nodes with
  | nil => exact nomatch h
  | cons m rest ih =>
    rw [identifiersIn]
    rcases List.mem_cons.1 h with rfl | hrest
    · exact List.sublist_append_left _ _
    · exact (ih hrest).trans (List.sublist_append_right _ _)

/-- What is within a container is below it. -/
theorem identifiersIn_inside_sublist {n : EditorNode} {heading : Heading}
    {inside : List EditorNode} (h : n.container? = some (heading, inside)) :
    (identifiersIn inside).Sublist (identifiersIn n.children) := by
  have hwithin : ∀ index, (identifiersIn (n.within index)).Sublist (identifiersIn n.children) := by
    intro index
    unfold within
    cases hchild : n.children[index]? with
    | none => exact List.nil_sublist _
    | some m =>
      have hm := identifiers_sublist_of_mem (List.mem_of_getElem? hchild)
      rw [identifiers_eq] at hm
      exact (List.sublist_append_right _ _).trans hm
  unfold container? at h
  cases hkind : n.kind <;> rw [hkind] at h
  case input =>
    obtain rfl := congrArg Prod.snd (Option.some.inj h)
    exact hwithin 0
  case collapsible =>
    obtain rfl := congrArg Prod.snd (Option.some.inj h)
    exact hwithin 1
  all_goals exact nomatch h

theorem carriedByLeaf_sublist (n : EditorNode) :
    n.carriedByLeaf.reduceOption.Sublist n.identifiers := by
  rw [identifiers_eq, carriedByLeaf]
  split
  · rw [List.reduceOption_singleton]
    exact List.sublist_append_left _ _
  · exact List.nil_sublist _

theorem carriedByLeaves_sublist (nodes : List EditorNode) :
    (carriedByLeaves nodes).reduceOption.Sublist (identifiersIn nodes) := by
  induction nodes with
  | nil => exact List.nil_sublist _
  | cons n rest ih =>
    rw [carriedByLeaves, List.flatMap_cons, ← carriedByLeaves, List.reduceOption_append,
      identifiersIn]
    exact List.Sublist.append n.carriedByLeaf_sublist ih

theorem carried_sublist (nodes : List EditorNode) :
    (carried nodes).reduceOption.Sublist (identifiersIn nodes) := by
  induction nodes with
  | nil => exact List.nil_sublist _
  | cons n rest ih =>
    rw [carried, List.flatMap_cons, ← carried, List.reduceOption_append, identifiersIn]
    apply List.Sublist.append _ ih
    cases hcontainer : n.container? with
    | none => exact n.carriedByLeaf_sublist
    | some c =>
      obtain ⟨heading, inside⟩ := c
      have hinside := (carriedByLeaves_sublist inside).trans
        (identifiersIn_inside_sublist hcontainer)
      rw [identifiers_eq]
      cases n.id with
      | none => exact hinside
      | some own => exact hinside.cons_cons own

theorem carried_children_sublist (root : EditorNode) :
    (carried root.children).reduceOption.Sublist root.identifiers := by
  rw [identifiers_eq]
  exact (carried_sublist root.children).trans (List.sublist_append_right _ _)

/-! ### When areas are told apart -/

/-- The extracted areas have the identifiers that are claimed for them. -/
theorem ids_extract (root : EditorNode) (ids : IdCounter) :
    (root.extract ids).1.flatMap Area.ids = (ids.claimAll (carried root.children)).1 := by
  rw [claimAll_carried]
  rfl

/-- Where the identifiers in a tree are distinct, and the last one is not used up, the areas in the
    tree have distinct identifiers if and only if none that is given to a node without one is
    carried by a node behind it. It is enough for this that the counter has passed every identifier
    in the tree. -/
theorem nodup_extract_iff (root : EditorNode) (ids : IdCounter)
    (hdistinct : root.identifiers.Nodup)
    (hroom : .last ∉ (root.extract ids).1.flatMap Area.ids) :
    (((root.extract ids).1.flatMap Area.ids).Nodup ↔ ids.Foresees (carried root.children)) ∧
      ((∀ id ∈ root.identifiers, id.val < ids.next.val) →
        ((root.extract ids).1.flatMap Area.ids).Nodup) := by
  have hcarried := root.carried_children_sublist.nodup hdistinct
  rw [ids_extract] at hroom ⊢
  have hiff := IdCounter.nodup_claimAll_iff hcarried hroom
  refine ⟨hiff, ?_⟩
  intro hpassed
  apply hiff.2
  apply IdCounter.foresees_of_lt
  intro id hmem
  exact hpassed id (root.carried_children_sublist.mem (List.reduceOption_mem_iff.2 hmem))

/-- A tree with a new collapsible, cells that were there before inside it and behind it, and a new
    cell in the end. -/
def partlyNew : EditorNode where
  kind := .doc
  children := [
    { kind := .collapsible, children := [{ kind := .collapsibleTitle, text := ['t'] },
      { kind := .collapsibleContent,
        children := [{ kind := .code, id := some ⟨5, by decide⟩ }] }] },
    { kind := .text, id := some ⟨7, by decide⟩ }, { kind := .code }]

theorem nodup_extract_partlyNew :
    partlyNew.identifiers.Nodup ∧
      (partlyNew.extract (.startingAt ⟨8, by decide⟩)).1.flatMap (fun a => a.ids.map AreaId.val) =
        [8, 5, 7, 9] ∧
      ((partlyNew.extract (.startingAt ⟨8, by decide⟩)).1.flatMap Area.ids).Nodup :=
  ⟨by decide, by decide, (nodup_extract_iff partlyNew (.startingAt ⟨8, by decide⟩) (by decide)
    (by decide)).2 (by decide)⟩

/-- A tree with a new paragraph in front of a cell that was there before. -/
def newInFront : EditorNode where
  kind := .doc
  children := [{ kind := .text, text := ['n', 'e', 'w'] },
    { kind := .code, id := some .zero, text := ['o', 'l', 'd'] }]

/-- A counter at its start gives the paragraph the identifier of the cell. -/
theorem extract_collides :
    newInFront.identifiers.Nodup ∧
      .last ∉ (newInFront.extract {}).1.flatMap Area.ids ∧
      (newInFront.extract {}).1 = [.leaf ⟨.zero, .text, ['n', 'e', 'w'], none⟩,
        .leaf ⟨.zero, .code, ['o', 'l', 'd'], none⟩] ∧
      ¬ ((newInFront.extract {}).1.flatMap Area.ids).Nodup := by
  decide

end EditorNode

end Worksheet
