import Mathlib.Logic.Function.Iterate
import Worksheet.Proofs.Editor.Identifiers

/-! # Extraction and the counter

  While a tree is gone through, identifiers that nodes carry are observed and new ones are drawn,
  and each that is drawn is observed as well. So in the end the floor of the counter lies behind all
  identifiers in the extracted areas, and when the counter is wound back it stops there
  (`EditorNode.val_next_extract`). All that is promised about extraction follows from this: nothing
  but the nodes that are kept moves the counter, and what the counter hands out later, wound back
  again or not, is the identifier of no area that was extracted.
-/

namespace Worksheet

/-! ### Claims raise the floor -/

namespace IdCounter

theorem val_floor_claim (ids : IdCounter) (carried : Option AreaId) :
    (ids.claim carried).2.floor.val = max ids.floor.val (ids.claim carried).1.succ.val := by
  cases carried with
  | none => exact val_floor_observe ids.fresh.2 ids.fresh.1
  | some id => exact val_floor_observe ids id

/-- Claims raise the floor behind everything that is claimed, and no further. -/
theorem val_floor_claimAll (ids : IdCounter) (carried : List (Option AreaId)) :
    (ids.claimAll carried).2.floor.val =
      max ids.floor.val (AreaId.above (ids.claimAll carried).1).val := by
  induction carried generalizing ids with
  | nil => exact (Nat.max_eq_left (Nat.zero_le _)).symm
  | cons c rest ih =>
    rw [claimAll_cons, ih, val_floor_claim, AreaId.val_above_cons, Nat.max_assoc]

/-- Where everything carries an identifier, no other is claimed. -/
theorem carried_of_mem_claimAll {ids : IdCounter} {carried : List (Option AreaId)} {id : AreaId}
    (h : ∀ own ∈ carried, own.isSome) (hid : id ∈ (ids.claimAll carried).1) :
    some id ∈ carried := by
  induction carried generalizing ids with
  | nil => exact nomatch hid
  | cons c rest ih =>
    rw [claimAll_cons] at hid
    obtain ⟨own, rfl⟩ := Option.isSome_iff_exists.1 (h c List.mem_cons_self)
    rcases List.mem_cons.1 hid with rfl | hrest
    · exact List.mem_cons_self
    · exact List.mem_cons_of_mem _ (ih (fun c hc => h c (List.mem_cons_of_mem _ hc)) hrest)

end IdCounter

namespace EditorNode

/-! ### Where the counter is in the end -/

/-- Extraction claims what the kept nodes carry and winds the counter back. -/
theorem snd_extract (root : EditorNode) (ids : IdCounter) :
    (root.extract ids).2 = (ids.claimAll (carried root.children)).2.restore ids.checkpoint := by
  rw [claimAll_carried]
  rfl

theorem val_floor_extract (root : EditorNode) (ids : IdCounter) :
    (root.extract ids).2.floor.val =
      max ids.floor.val (AreaId.above ((root.extract ids).1.flatMap Area.ids)).val := by
  rw [snd_extract, ids_extract]
  exact ids.val_floor_claimAll _

/-- The counter goes back to where it was, or as far as the floor lets it. -/
theorem val_next_extract_eq_max_floor (root : EditorNode) (ids : IdCounter) :
    (root.extract ids).2.next.val = max ids.next.val (root.extract ids).2.floor.val := by
  rw [snd_extract]
  exact IdCounter.val_next_restore _ _

/-- A counter that has passed its floor ends behind all identifiers in the extracted areas, or else
    where it was. -/
theorem val_next_extract (root : EditorNode) {ids : IdCounter}
    (h : ids.floor.val ≤ ids.next.val) :
    (root.extract ids).2.next.val =
      max ids.next.val (AreaId.above ((root.extract ids).1.flatMap Area.ids)).val := by
  rw [val_next_extract_eq_max_floor, val_floor_extract, ← Nat.max_assoc, Nat.max_eq_left h]

theorem floor_le_next_extract (root : EditorNode) (ids : IdCounter) :
    (root.extract ids).2.floor.val ≤ (root.extract ids).2.next.val := by
  rw [val_next_extract_eq_max_floor]
  exact Nat.le_max_right _ _

/-- A counter that has passed all identifiers that the kept nodes carry stays where it is, if every
    one of these nodes carries one. -/
theorem next_extract_eq {root : EditorNode} {ids : IdCounter} (h : ids.floor.val ≤ ids.next.val)
    (hcarried : ∀ own ∈ carried root.children, ∃ id ∈ own, id.val < ids.next.val) :
    (root.extract ids).2.next = ids.next := by
  apply AreaId.eq_of_val_eq
  rw [val_next_extract root h]
  apply Nat.max_eq_left
  apply AreaId.val_above_le
  intro id hid
  rw [ids_extract] at hid
  have hsome : ∀ own ∈ carried root.children, own.isSome := by
    intro own hown
    obtain ⟨id, hid, -⟩ := hcarried own hown
    exact Option.isSome_iff_exists.2 ⟨id, hid⟩
  obtain ⟨own, hown, hlt⟩ := hcarried _ (IdCounter.carried_of_mem_claimAll hsome hid)
  obtain rfl := Option.some.inj hown
  rw [AreaId.val_succ]
  omega

/-- However often a tree is extracted, a counter that it does not move stays where it is. -/
theorem next_iterate_extract {root : EditorNode} {ids : IdCounter}
    (h : ids.floor.val ≤ ids.next.val)
    (hcarried : ∀ own ∈ carried root.children, ∃ id ∈ own, id.val < ids.next.val) (n : Nat) :
    ((fun ids => (root.extract ids).2)^[n] ids).next = ids.next := by
  induction n generalizing ids with
  | zero => rfl
  | succ n ih =>
    have hnext := next_extract_eq h hcarried
    rw [Function.iterate_succ_apply, ih (floor_le_next_extract root ids), hnext]
    rwa [hnext]

/-! ### Identifiers that are handed out later -/

/-- Whatever is done to the counter later, it hands out the identifier of no area that was
    extracted. -/
theorem fresh_not_mem_extract {root : EditorNode} {ids c : IdCounter}
    {log : List IdCounter.Event} (hrun : IdCounter.Run (root.extract ids).2 log c)
    (hlast : c.fresh.1 ≠ .last) : c.fresh.1 ∉ (root.extract ids).1.flatMap Area.ids := by
  intro hmem
  have haccounts := hrun.accounts (floor_le_next_extract root ids)
  have hlt : c.fresh.1.val < c.fresh.1.succ.val := AreaId.val_lt_succ hlast
  have hle := AreaId.val_succ_le_above hmem
  have hstart := val_floor_extract root ids
  have hfloor := haccounts.floor_eq
  have hpassed : c.floor.val ≤ c.fresh.1.val := haccounts.floor_le
  omega

/-! ### What extraction does to the counter -/

/-- What is promised about a counter and the extraction of a tree. -/
structure KeepsCount (root : EditorNode) (ids : IdCounter) : Prop where
  /-- The counter ends right behind the largest identifier in the extracted areas, children
      included, or else where it was. -/
  next_eq : (root.extract ids).2.fresh.1.val =
    max ids.fresh.1.val (AreaId.above ((root.extract ids).1.flatMap Area.ids)).val
  /-- So does its floor, and nothing else changes. -/
  floor_eq : (root.extract ids).2.floor.val =
    max ids.floor.val (AreaId.above ((root.extract ids).1.flatMap Area.ids)).val
  /-- It never goes back. -/
  le_next : ids.fresh.1.val ≤ (root.extract ids).2.fresh.1.val
  /-- However often a tree is extracted, it stays where it is, if each kept node carries an
      identifier that it has passed. -/
  next_iterate : (∀ own ∈ carried root.children, ∃ id ∈ own, id.val < ids.fresh.1.val) →
    ∀ n, ((fun ids => (root.extract ids).2)^[n] ids).fresh.1 = ids.fresh.1
  /-- It makes no difference to it what nodes are skipped. -/
  skipped : ∀ other : EditorNode, carried other.children = carried root.children →
    (other.extract ids).2 = (root.extract ids).2
  /-- Whatever is done to it later, it hands out the identifier of no area that was extracted, but
      for the last of all, at which it stays. -/
  fresh_not_mem : ∀ log c, IdCounter.Run (root.extract ids).2 log c → c.fresh.1 ≠ .last →
    c.fresh.1 ∉ (root.extract ids).1.flatMap Area.ids

/-- Extraction leaves every counter that can be reached where it was, or moves it right behind the
    largest identifier that it has found or given. -/
theorem keepsCount_extract (root : EditorNode) {ids : IdCounter} (h : ids.Reachable) :
    root.KeepsCount ids := by
  have hfloor := IdCounter.reachable_iff.1 h
  have hnext := val_next_extract root hfloor
  constructor
  case next_eq => exact hnext
  case floor_eq => exact val_floor_extract root ids
  case le_next => exact hnext ▸ Nat.le_max_left _ _
  case next_iterate =>
    intro hcarried n
    exact next_iterate_extract hfloor hcarried n
  case skipped =>
    intro other hsame
    rw [snd_extract, snd_extract, hsame]
  case fresh_not_mem =>
    intro log c hrun
    exact fresh_not_mem_extract hrun

/-- A tree in which nodes with large identifiers are skipped: one of an unknown kind, the wrapper in
    an input, a collapsible inside the input, and what comes behind the wrapper. -/
def skipping : EditorNode where
  kind := .doc
  children := [
    { kind := .text }, { kind := .unknown, id := some ⟨90, by decide⟩ },
    { kind := .input, id := some ⟨4, by decide⟩, children := [
      { kind := .inputContent, id := some ⟨91, by decide⟩, children := [
        { kind := .code },
        { kind := .collapsible, id := some ⟨92, by decide⟩ },
        { kind := .math, id := some ⟨12, by decide⟩ }] },
      { kind := .code, id := some ⟨93, by decide⟩ }] }]

/-- The counter goes by the nodes that are kept. The last of them carries the largest identifier. -/
theorem keepsCount_extract_skipping :
    IdCounter.Reachable ⟨⟨6, by decide⟩, ⟨4, by decide⟩⟩ ∧
      skipping.KeepsCount ⟨⟨6, by decide⟩, ⟨4, by decide⟩⟩ ∧
      (skipping.extract ⟨⟨6, by decide⟩, ⟨4, by decide⟩⟩).1.flatMap Area.ids =
        [⟨6, by decide⟩, ⟨4, by decide⟩, ⟨7, by decide⟩, ⟨12, by decide⟩] ∧
      (skipping.extract ⟨⟨6, by decide⟩, ⟨4, by decide⟩⟩).2.fresh.1 = ⟨13, by decide⟩ := by
  have hreachable : IdCounter.Reachable ⟨⟨6, by decide⟩, ⟨4, by decide⟩⟩ :=
    IdCounter.reachable_iff.2 (by decide)
  exact ⟨hreachable, keepsCount_extract skipping hreachable, by decide, by decide⟩

end EditorNode

end Worksheet
