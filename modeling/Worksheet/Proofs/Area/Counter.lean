import Worksheet.AreaId

/-! # Identifiers in use

  A counter hands out identifiers, observes identifiers that come from elsewhere, and is wound back
  to checkpoints. Winding back takes identifiers back that were handed out, and observing keeps the
  counter from doing so.

  - `IdCounter.Step` says all that can be done to a counter, `IdCounter.Run` is any sequence of
    it, with a record of what happened.
  - `IdCounter.Accounts` is the invariant: the floor lies right behind the largest identifier on
    record, and the counter lies behind the floor and behind all that it has handed out.
  - The main statement is that no identifier in use is handed out, and where a counter goes on
    after it was wound back. At the top of the range, where the counter stays, it may hand
    out the last identifier again.
-/

namespace Worksheet

/-! ### The counter in numbers -/

namespace AreaId

/-- The last identifier. The counter stays there, so it may hand it out more than once. -/
def last : AreaId := ⟨Nat.pow 2 64 - 1, by decide⟩

theorem eq_of_val_eq {a b : AreaId} (h : a.val = b.val) : a = b := by
  cases a
  cases b
  cases h
  rfl

theorem val_lt_of_ne_last {a : AreaId} (h : a ≠ last) : a.val < Nat.pow 2 64 - 1 := by
  have hlt := a.val_lt
  have hne : a.val ≠ Nat.pow 2 64 - 1 := fun heq => h (eq_of_val_eq heq)
  omega

theorem val_le_succ (a : AreaId) : a.val ≤ a.succ.val := by
  have hlt := a.val_lt
  rw [a.val_succ]
  omega

theorem val_lt_succ {a : AreaId} (h : a ≠ last) : a.val < a.succ.val := by
  have hlt := val_lt_of_ne_last h
  rw [a.val_succ]
  omega

theorem val_succ_le_succ {a b : AreaId} (h : a.val ≤ b.val) : a.succ.val ≤ b.succ.val := by
  rw [a.val_succ, b.val_succ]
  omega

/-! ### Behind several identifiers -/

/-- The successor of the largest of some identifiers; the first identifier if there are none. -/
def above : List AreaId → AreaId
  | [] => zero
  | id :: rest => id.succ.max (above rest)

theorem val_above_cons (id : AreaId) (rest : List AreaId) :
    (above (id :: rest)).val = Max.max id.succ.val (above rest).val :=
  val_max _ _

theorem val_succ_le_above {ids : List AreaId} {id : AreaId} (h : id ∈ ids) :
    id.succ.val ≤ (above ids).val := by
  induction ids with
  | nil => exact nomatch h
  | cons other rest ih =>
    rw [val_above_cons]
    rcases List.mem_cons.1 h with rfl | hrest
    · exact Nat.le_max_left _ _
    · exact Nat.le_trans (ih hrest) (Nat.le_max_right _ _)

theorem val_above_le {ids : List AreaId} {bound : Nat} (h : ∀ id ∈ ids, id.succ.val ≤ bound) :
    (above ids).val ≤ bound := by
  induction ids with
  | nil => exact Nat.zero_le bound
  | cons other rest ih =>
    rw [val_above_cons]
    exact Nat.max_le.2 ⟨h other List.mem_cons_self, ih fun id hid => h id (.tail _ hid)⟩

/-- The largest of the identifiers is the only one that counts. -/
theorem above_eq_succ {ids : List AreaId} {id : AreaId} (h : id ∈ ids)
    (hlargest : ∀ other ∈ ids, other.val ≤ id.val) : above ids = id.succ := by
  apply eq_of_val_eq
  apply Nat.le_antisymm
  · exact val_above_le fun other hother => val_succ_le_succ (hlargest other hother)
  · exact val_succ_le_above h

end AreaId

namespace IdCounter

theorem val_next_observe (ids : IdCounter) (id : AreaId) :
    (ids.observe id).next.val = max ids.next.val (max ids.floor.val id.succ.val) := by
  show (AreaId.max _ (AreaId.max _ _)).val = _
  rw [AreaId.val_max, AreaId.val_max]

theorem val_floor_observe (ids : IdCounter) (id : AreaId) :
    (ids.observe id).floor.val = max ids.floor.val id.succ.val :=
  AreaId.val_max _ _

theorem val_next_restore (ids : IdCounter) (saved : Checkpoint) :
    (ids.restore saved).next.val = max saved.next.val ids.floor.val :=
  AreaId.val_max _ _

theorem eq_of_val_eq {c d : IdCounter} (hnext : c.next.val = d.next.val)
    (hfloor : c.floor.val = d.floor.val) : c = d := by
  cases c
  cases d
  rw [mk.injEq]
  exact ⟨AreaId.eq_of_val_eq hnext, AreaId.eq_of_val_eq hfloor⟩

/-! ### Runs of a counter -/

/-- What goes on record. -/
inductive Event where
  /-- An identifier was handed out. -/
  | handedOut (id : AreaId)
  /-- An identifier from elsewhere was observed. -/
  | observed (id : AreaId)
  /-- A checkpoint was taken. -/
  | saved (checkpoint : Checkpoint)
  /-- The counter was wound back. -/
  | restored (checkpoint : Checkpoint)
deriving DecidableEq

/-- All that can be done to a counter. It can be wound back to any checkpoint, whether that was
    taken earlier, was used before or is that of another counter. -/
inductive Step : IdCounter → Event → IdCounter → Prop where
  | fresh (c : IdCounter) : Step c (.handedOut c.fresh.1) c.fresh.2
  | observe (c : IdCounter) (id : AreaId) : Step c (.observed id) (c.observe id)
  | checkpoint (c : IdCounter) : Step c (.saved c.checkpoint) c
  | restore (c : IdCounter) (saved : Checkpoint) : Step c (.restored saved) (c.restore saved)

/-- Any number of steps, with what is on record of them. The latest comes first. -/
inductive Run (start : IdCounter) : List Event → IdCounter → Prop where
  | nil : Run start [] start
  | cons {log : List Event} {e : Event} {c c' : IdCounter} :
      Run start log c → Step c e c' → Run start (e :: log) c'

/-- What was observed. -/
def observed : List Event → List AreaId
  | [] => []
  | .observed id :: log => id :: observed log
  | _ :: log => observed log

/-- What happened since the counter was last wound back. -/
def sinceRestored : List Event → List Event
  | [] => []
  | .restored _ :: _ => []
  | e :: log => e :: sinceRestored log

theorem mem_observed {log : List Event} {id : AreaId} (h : .observed id ∈ log) :
    id ∈ observed log := by
  induction log with
  | nil => exact nomatch h
  | cons e log ih =>
    rcases List.mem_cons.1 h with rfl | hearlier
    · exact List.mem_cons_self
    · cases e with
      | observed other => exact List.mem_cons_of_mem other (ih hearlier)
      | handedOut _ | saved _ | restored _ => exact ih hearlier

/-! ### The invariant -/

/-- What a counter knows of its record. -/
structure Accounts (start : IdCounter) (log : List Event) (c : IdCounter) : Prop where
  /-- The counter has passed its floor. -/
  floor_le : c.floor.val ≤ c.next.val
  /-- The floor lies right behind the largest identifier that was observed. -/
  floor_eq : c.floor.val = max start.floor.val (AreaId.above (observed log)).val
  /-- The counter has passed what it handed out. -/
  handedOut_lt : ∀ id, .handedOut id ∈ sinceRestored log → id ≠ .last → id.val < c.next.val

/-- Every step keeps account of what it does. -/
theorem Accounts.step {start c c' : IdCounter} {log : List Event} {e : Event}
    (h : Accounts start log c) (hstep : Step c e c') : Accounts start (e :: log) c' := by
  have hfloor := h.floor_le
  cases hstep with
  | fresh =>
    have hnext : c.next.val ≤ c.fresh.2.next.val := c.next.val_le_succ
    refine ⟨Nat.le_trans hfloor hnext, h.floor_eq, ?_⟩
    intro id hid hlast
    rcases List.mem_cons.1 hid with heq | hearlier
    · cases heq
      exact AreaId.val_lt_succ hlast
    · exact Nat.lt_of_lt_of_le (h.handedOut_lt id hearlier hlast) hnext
  | observe id =>
    refine ⟨?_, ?_, ?_⟩
    · rw [val_floor_observe, val_next_observe]
      exact Nat.le_max_right _ _
    · rw [val_floor_observe, h.floor_eq, observed, AreaId.val_above_cons]
      omega
    · intro other hother hlast
      rcases List.mem_cons.1 hother with heq | hearlier
      · exact nomatch heq
      · have := h.handedOut_lt other hearlier hlast
        rw [val_next_observe]
        omega
  | checkpoint =>
    refine ⟨hfloor, h.floor_eq, ?_⟩
    intro id hid hlast
    rcases List.mem_cons.1 hid with heq | hearlier
    · exact nomatch heq
    · exact h.handedOut_lt id hearlier hlast
  | restore saved =>
    refine ⟨?_, h.floor_eq, ?_⟩
    · rw [val_next_restore]
      exact Nat.le_max_right _ _
    · intro id hid
      exact nomatch hid

/-- A counter that has passed its floor keeps account of every run. -/
theorem Run.accounts {start c : IdCounter} {log : List Event} (h : Run start log c)
    (hstart : start.floor.val ≤ start.next.val) : Accounts start log c := by
  induction h with
  | nil => exact ⟨hstart, (Nat.max_eq_left (Nat.zero_le _)).symm, fun id hid => nomatch hid⟩
  | cons _ hstep ih => exact ih.step hstep

/-! ### Counters that can be reached -/

/-- Some run from a new counter leads to this one. -/
def Reachable (c : IdCounter) : Prop := ∃ first log, Run (.startingAt first) log c

/-- A counter can be reached if and only if it has passed its floor. -/
theorem reachable_iff {c : IdCounter} : c.Reachable ↔ c.floor.val ≤ c.next.val := by
  constructor
  · rintro ⟨first, log, hrun⟩
    exact (hrun.accounts (Nat.zero_le _)).floor_le
  · intro h
    by_cases hfloor : c.floor.val = 0
    · have hc : startingAt c.next = c := eq_of_val_eq rfl hfloor.symm
      exact ⟨c.next, [], hc ▸ .nil⟩
    · -- a counter that started there has observed the identifier right before the floor
      have hlt := c.floor.val_lt
      let seen : AreaId := ⟨c.floor.val - 1, by omega⟩
      have hsucc : seen.succ.val = c.floor.val := by
        rw [AreaId.val_succ]
        show min (c.floor.val - 1 + 1) _ = _
        omega
      have hc : (startingAt c.next).observe seen = c := by
        apply eq_of_val_eq
        · rw [val_next_observe, hsucc]
          exact Nat.max_eq_left (Nat.max_le.2 ⟨Nat.zero_le _, h⟩)
        · rw [val_floor_observe, hsucc]
          exact Nat.max_eq_right (Nat.zero_le _)
      have hrun : Run (startingAt c.next) [.observed seen] ((startingAt c.next).observe seen) :=
        .cons .nil (.observe _ seen)
      rw [hc] at hrun
      exact ⟨c.next, _, hrun⟩

/-! ### No identifier in use is handed out -/

/-- What is promised about the identifiers that are handed out next. -/
structure HandsOutUnused (log : List Event) (c : IdCounter) : Prop where
  /-- None that was observed is handed out. -/
  not_observed : c.fresh.1 ≠ .last → .observed c.fresh.1 ∉ log
  /-- None is handed out twice, unless the counter was wound back in between. -/
  not_handedOut : c.fresh.1 ≠ .last → .handedOut c.fresh.1 ∉ sinceRestored log
  /-- Wound back, the counter goes on with what it had saved, or else right behind the largest
      identifier that was observed. -/
  fresh_restore : ∀ saved, (c.restore saved).fresh.1.val =
    max saved.next.val (AreaId.above (observed log)).val

/-- Whatever is done to a new counter, in whatever order, it hands out no identifier that is in use,
    but for the last of all, at which it stays. -/
theorem handsOutUnused_of_run {first : AreaId} {log : List Event} {c : IdCounter}
    (h : Run (.startingAt first) log c) : HandsOutUnused log c := by
  have haccounts := h.accounts (Nat.zero_le _)
  have hfloor : c.floor.val = (AreaId.above (observed log)).val :=
    haccounts.floor_eq.trans (Nat.max_eq_right (Nat.zero_le _))
  constructor
  case not_observed =>
    intro hlast hobserved
    have hlt : c.next.val < c.next.succ.val := AreaId.val_lt_succ hlast
    have hle := AreaId.val_succ_le_above (mem_observed hobserved)
    have hpassed := haccounts.floor_le
    rw [hfloor] at hpassed
    exact absurd (Nat.le_trans hle hpassed) (Nat.not_le_of_lt hlt)
  case not_handedOut =>
    intro hlast hgiven
    exact Nat.lt_irrefl _ (haccounts.handedOut_lt c.next hgiven hlast)
  case fresh_restore =>
    intro saved
    exact (c.val_next_restore saved).trans (by rw [hfloor])

/-- Two checkpoints on both sides of an identifier, an observation behind both of them, and the
    counter wound back to the later one and then to the earlier one. -/
theorem handsOutUnused_of_rewound :
    ∃ log c, Run (.startingAt ⟨3, by decide⟩) log c ∧ HandsOutUnused log c ∧
      observed log = [⟨7, by decide⟩] ∧ c.fresh.1 = ⟨9, by decide⟩ ∧
      log.count (.handedOut ⟨8, by decide⟩) = 3 ∧
      (sinceRestored log).count (.handedOut ⟨8, by decide⟩) = 1 ∧
      (c.restore ⟨⟨4, by decide⟩⟩).fresh.1 = ⟨8, by decide⟩ := by
  have hsaved := (Run.nil : Run (.startingAt ⟨3, by decide⟩) [] _)
    |>.cons (.checkpoint _) |>.cons (.fresh _) |>.cons (.checkpoint _) |>.cons (.fresh _)
  have hrun := hsaved |>.cons (.observe _ ⟨7, by decide⟩) |>.cons (.fresh _)
    |>.cons (.restore _ ⟨⟨4, by decide⟩⟩) |>.cons (.fresh _)
    |>.cons (.restore _ ⟨⟨3, by decide⟩⟩) |>.cons (.fresh _)
  exact ⟨_, _, hrun, handsOutUnused_of_run hrun, by decide, by decide, by decide, by decide,
    by decide⟩

end IdCounter

end Worksheet
