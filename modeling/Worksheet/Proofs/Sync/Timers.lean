import Worksheet.Proofs.Sync.Bench

/-! # Timers and the edits that wait for them

  An edit is reported, and it is synchronised at once or waits for a timer. Two invariants say that
  none waits in vain:

  - `Bench.Armed`: exactly one timer runs while something is pending, it is due at the deadline, and
    the controller can cancel it; otherwise none runs. Every step preserves this.
  - `Bench.CaughtUp`: with nothing pending, the controller has the text of the tree in the editor.
    Every step preserves this in which an edit is not kept secret.

  Timers are numbered as they are started, so a timer that has fired or was cancelled is never seen
  again (`Bench.Run.not_mem_of_ended`).
-/

namespace Worksheet

theorem Debouncer.isPending_eq (d : Debouncer) : d.isPending = d.deadline?.isSome := by
  obtain ⟨pause, latency, state, lastChange⟩ := d
  cases state <;> rfl

theorem Debouncer.isPending_iff {d : Debouncer} :
    d.isPending = true ↔ ∃ due, d.deadline? = some due := by
  rw [d.isPending_eq, Option.isSome_iff_exists]

/-! ### The timer of a deadline -/

namespace Cause.Effect

variable {k : Cause} {c : Controller} {now : Time} {syncs : Bool} {debouncer : Debouncer}
  {order : TimerOrder}

/-- A controller that has noted the deadline for its timer does so again. -/
theorem noted_eq (h : Effect c now k syncs debouncer order)
    (htimer : c.timer = c.debouncer.deadline?) : order.noted c.timer = debouncer.deadline? := by
  cases h with
  | pause | late | arm | due | pending => rfl
  | keep due hdue => exact htimer.trans hdue
  | early | idle => exact htimer

/-- While something stays pending, the timers are left alone. -/
theorem eq_leave (h : Effect c now k syncs debouncer order)
    (hbefore : c.debouncer.deadline?.isSome) (hafter : debouncer.deadline?.isSome) :
    order = .leave := by
  cases h with
  | pause | late | due | pending => exact nomatch hafter
  | arm hidle =>
    rw [hidle] at hbefore
    exact nomatch hbefore
  | keep | early | idle => rfl

/-- An edit that is not synchronised at once is pending. -/
theorem isSome_of_change (h : Effect c now .change false debouncer order) :
    debouncer.deadline?.isSome := by
  cases h <;> rfl

/-- Without an edit, whatever is not synchronised stays as it was. -/
theorem debouncer_eq (h : Effect c now k false debouncer order) (hk : k ≠ .change) :
    debouncer = c.debouncer := by
  cases h with
  | arm | keep => exact absurd rfl hk
  | early | idle => rfl

/-- Whatever is synchronised is not pending any more. -/
theorem deadline?_eq_none (h : Effect c now k true debouncer order) :
    debouncer.deadline? = none := by
  cases h <;> rfl

end Cause.Effect

namespace Alarms

/-- The timers wait for a deadline: one timer runs, it is due then, and the controller can cancel
    it. Without a deadline none runs. -/
structure Awaits (a : Alarms) (deadline? : Option Time) : Prop where
  due_eq : a.running.map Alarm.due = deadline?.toList
  held_eq : a.held = a.running.head?.map Alarm.number

variable {a : Alarms}

theorem Awaits.of_none (h : a.Awaits none) : a.running = [] ∧ a.held = none := by
  have hrunning : a.running = [] := List.map_eq_nil_iff.1 h.due_eq
  refine ⟨hrunning, ?_⟩
  rw [h.held_eq, hrunning]
  rfl

theorem Awaits.of_some {due : Time} (h : a.Awaits (some due)) :
    ∃ number, a.running = [⟨number, due⟩] ∧ a.held = some number := by
  obtain ⟨⟨number, due'⟩, hrunning, hdue⟩ := List.map_eq_singleton_iff.1 h.due_eq
  obtain rfl : due' = due := hdue
  refine ⟨number, hrunning, ?_⟩
  rw [h.held_eq, hrunning]
  rfl

theorem awaits_none (hrunning : a.running = []) (hheld : a.held = none) : a.Awaits none := by
  refine ⟨congrArg (List.map Alarm.due) hrunning, ?_⟩
  rw [hheld, hrunning]
  rfl

theorem running_remove {number : Nat} {due : Time} (h : a.running = [⟨number, due⟩]) :
    (a.remove number).running = [] := by
  simp [remove, h]

theorem Awaits.cancel {deadline? : Option Time} (h : a.Awaits deadline?) :
    a.cancel.Awaits none := by
  cases deadline? with
  | none =>
    -- nothing is held, so nothing is cancelled
    have hheld := h.of_none.2
    unfold Alarms.cancel
    rw [hheld]
    exact h
  | some due =>
    obtain ⟨number, hrunning, hheld⟩ := h.of_some
    unfold Alarms.cancel
    rw [hheld]
    exact awaits_none (running_remove hrunning) rfl

theorem Awaits.start (h : a.Awaits none) (due : Time) : (a.start due).Awaits (some due) := by
  unfold Alarms.start
  rw [h.of_none.1]
  exact ⟨rfl, rfl⟩

/-- When the controller acts on an edit or a flush, the timers follow the deadline. -/
theorem Awaits.obey {k : Cause} {c : Controller} {now : Time} {syncs : Bool}
    {debouncer : Debouncer} {order : TimerOrder} (h : a.Awaits c.debouncer.deadline?)
    (heffect : Cause.Effect c now k syncs debouncer order) (hk : k ≠ .fire) :
    (a.obey order).Awaits debouncer.deadline? := by
  cases heffect with
  | pause | late | pending => exact h.cancel
  | arm => exact h.cancel.start _
  | keep due hdue =>
    rw [hdue] at h
    exact h
  | idle => exact h
  | due | early => exact absurd rfl hk

/-- A timer that fires is the timer of the deadline, so the controller synchronises and no timer is
    left. -/
theorem Awaits.fire {c : Controller} {now : Time} {syncs : Bool} {debouncer : Debouncer}
    {order : TimerOrder} {alarm : Alarm} (h : a.Awaits c.debouncer.deadline?)
    (heffect : Cause.Effect c now .fire syncs debouncer order) (hmem : alarm ∈ a.running)
    (hdue : alarm.due ≤ now) :
    syncs = true ∧ ((a.remove alarm.number).obey order).Awaits debouncer.deadline? := by
  cases hdeadline : c.debouncer.deadline? with
  | none =>
    rw [hdeadline] at h
    rw [h.of_none.1] at hmem
    exact nomatch hmem
  | some due =>
    rw [hdeadline] at h
    -- the timer is the only one that runs, so it is due at the deadline
    obtain ⟨number, hrunning, -⟩ := h.of_some
    rw [hrunning, List.mem_singleton] at hmem
    subst hmem
    cases heffect with
    | due =>
      exact ⟨rfl, awaits_none (running_remove hrunning) rfl⟩
    | early hearly => exact absurd hdue (Nat.not_le_of_lt (hearly due hdeadline))

/-! ### Timers that have ended -/

/-- The timer of a number was started, and it has fired or was cancelled. -/
structure Ended (a : Alarms) (number : Nat) : Prop where
  started : number < a.started
  not_running : ∀ alarm ∈ a.running, alarm.number ≠ number

variable {number : Nat}

theorem Ended.remove (h : a.Ended number) (other : Nat) : (a.remove other).Ended number :=
  ⟨h.started, fun alarm hmem => h.not_running alarm (List.mem_filter.1 hmem).1⟩

theorem Ended.cancel (h : a.Ended number) : a.cancel.Ended number := by
  unfold Alarms.cancel
  cases a.held with
  | none => exact h
  | some other => exact ⟨h.started, (h.remove other).not_running⟩

/-- A timer that is started has a new number. -/
theorem Ended.start (h : a.Ended number) (due : Time) : (a.start due).Ended number := by
  refine ⟨Nat.lt_succ_of_lt h.started, fun alarm hmem => ?_⟩
  rcases List.mem_append.1 hmem with hold | hnew
  · exact h.not_running alarm hold
  · -- its number is that of the next timer, above all numbers given so far
    rw [List.mem_singleton.1 hnew]
    exact (Nat.ne_of_lt h.started).symm

theorem Ended.obey (h : a.Ended number) (order : TimerOrder) : (a.obey order).Ended number := by
  cases order with
  | cancel => exact h.cancel
  | restart due => exact h.cancel.start due
  | release => exact ⟨h.started, h.not_running⟩
  | leave => exact h

end Alarms

namespace Bench

/-! ### One timer while something is pending -/

/-- The timers and the controller agree on the deadline. -/
structure Armed (s : Bench) : Prop where
  awaits : s.alarms.Awaits s.controller.debouncer.deadline?
  timer_eq : s.controller.timer = s.controller.debouncer.deadline?

theorem armed_opening (document : Document) (ids : IdCounter) (settings : SyncSettings) (now : Time)
    (tree : EditorNode) : (opening document ids settings now tree).Armed :=
  ⟨⟨rfl, rfl⟩, rfl⟩

theorem Armed.act {s : Bench} {k : Cause} (h : s.Armed) (hk : k ≠ .fire) : (s.act k).Armed := by
  have heffect := k.effect s.controller s.now
  constructor
  · rw [debouncer_act]
    exact h.awaits.obey heffect hk
  · rw [debouncer_act, timer_act]
    exact heffect.noted_eq h.timer_eq

/-- A timer that fires makes the controller synchronise. -/
theorem Armed.fire {s : Bench} {alarm : Alarm} (h : s.Armed) (hmem : alarm ∈ s.alarms.running)
    (hdue : alarm.due ≤ s.now) :
    Cause.fire.syncs s.controller s.now = true ∧ (s.next (.fire alarm.number)).Armed := by
  have heffect := Cause.fire.effect s.controller s.now
  obtain ⟨hsyncs, hawaits⟩ := h.awaits.fire heffect hmem hdue
  refine ⟨hsyncs, ?_, ?_⟩
  · show Alarms.Awaits _ ((s.prepare (.fire alarm.number)).act .fire).controller.debouncer.deadline?
    rw [debouncer_act]
    exact hawaits
  · show ((s.prepare (.fire alarm.number)).act .fire).controller.timer =
      ((s.prepare (.fire alarm.number)).act .fire).controller.debouncer.deadline?
    rw [debouncer_act, timer_act]
    exact heffect.noted_eq h.timer_eq

/-- Every step preserves the agreement. -/
theorem Armed.step {s s' : Bench} {l : Label} (hstep : s.Step l s') (h : s.Armed) : s'.Armed := by
  obtain ⟨hpossible, rfl⟩ := hstep
  cases l with
  | wait stop => exact ⟨h.awaits, h.timer_eq⟩
  | edit tree => exact ⟨h.awaits, h.timer_eq⟩
  | change tree =>
    have hedited : ({ s with tree } : Bench).Armed := ⟨h.awaits, h.timer_eq⟩
    exact hedited.act (by decide)
  | fire number =>
    obtain ⟨alarm, hmem, rfl, hdue⟩ := hpossible
    exact (h.fire hmem hdue).2
  | flush => exact h.act (by decide)

/-- Every run preserves the agreement. -/
theorem Armed.run {s s' : Bench} {labels : List Label} (hrun : s.Run labels s') (h : s.Armed) :
    s'.Armed :=
  hrun.preserves (fun _ _ _ _ hstep hs => hs.step hstep) h

/-- One timer runs and something is pending, or neither. -/
theorem Armed.eq_or {s : Bench} (h : s.Armed) :
    (s.controller.isPending = false ∧ s.alarms.running = []) ∨
      ∃ a, s.controller.isPending = true ∧ s.alarms.running = [a] ∧
        s.controller.debouncer.deadline? = some a.due ∧ s.alarms.held = some a.number := by
  have hawaits := h.awaits
  have hpending : s.controller.isPending = s.controller.debouncer.deadline?.isSome :=
    s.controller.debouncer.isPending_eq
  cases hdeadline : s.controller.debouncer.deadline? with
  | none =>
    rw [hdeadline] at hawaits hpending
    exact .inl ⟨hpending, hawaits.of_none.1⟩
  | some due =>
    rw [hdeadline] at hawaits hpending
    obtain ⟨number, hrunning, hheld⟩ := hawaits.of_some
    exact .inr ⟨⟨number, due⟩, hpending, hrunning, rfl, hheld⟩

/-- After a timer has fired nothing is pending. -/
theorem Armed.isPending_fire {s : Bench} {alarm : Alarm} (h : s.Armed)
    (hmem : alarm ∈ s.alarms.running) (hdue : alarm.due ≤ s.now) :
    (s.next (.fire alarm.number)).controller.isPending = false := by
  have heffect := Cause.fire.effect s.controller s.now
  rw [(h.fire hmem hdue).1] at heffect
  show ((s.prepare (.fire alarm.number)).act .fire).controller.debouncer.isPending = false
  rw [Debouncer.isPending_eq, debouncer_act]
  exact congrArg Option.isSome heffect.deadline?_eq_none

/-- When something was pending and still is, the controller has left the timers alone. -/
theorem alarms_act {s : Bench} {k : Cause} (hbefore : s.controller.isPending = true)
    (hafter : (s.act k).controller.isPending = true) : (s.act k).alarms = s.alarms := by
  have hwas : s.controller.debouncer.deadline?.isSome := by
    rw [← Debouncer.isPending_eq]
    exact hbefore
  have hstill : (k.debounce s.controller s.now).deadline?.isSome := by
    rw [← debouncer_act, ← Debouncer.isPending_eq]
    exact hafter
  show s.alarms.obey (k.order s.controller s.now) = s.alarms
  rw [(k.effect s.controller s.now).eq_leave hwas hstill]
  rfl

/-- While something stays pending, the timer that runs stays the same. -/
theorem Armed.running_eq {s s' : Bench} {l : Label} (h : s.Armed) (hstep : s.Step l s')
    (hbefore : s.controller.isPending = true) (hafter : s'.controller.isPending = true) :
    s'.alarms.running = s.alarms.running := by
  obtain ⟨hpossible, rfl⟩ := hstep
  cases l with
  | wait stop => rfl
  | edit tree => rfl
  | change tree =>
    have halarms := alarms_act (s := { s with tree }) (k := .change) hbefore hafter
    exact congrArg Alarms.running halarms
  | fire number =>
    -- the timer that fires is the only one, so nothing stays pending
    obtain ⟨alarm, hmem, rfl, hdue⟩ := hpossible
    exact nomatch (h.isPending_fire hmem hdue).symm.trans hafter
  | flush => exact congrArg Alarms.running (alarms_act hbefore hafter)

/-! ### Timers that have ended stay away -/

theorem ended_prepare {s : Bench} {number : Nat} (h : s.alarms.Ended number) (l : Label) :
    (s.prepare l).alarms.Ended number := by
  cases l with
  | fire other => exact h.remove other
  | wait | edit | change | flush => exact h

theorem Step.ended {s s' : Bench} {l : Label} {number : Nat} (hstep : s.Step l s')
    (h : s.alarms.Ended number) : s'.alarms.Ended number := by
  have hprepared := ended_prepare h l
  rcases hstep.eq_or with ⟨-, rfl⟩ | ⟨k, -, rfl⟩
  · exact hprepared
  · exact hprepared.obey _

/-- A timer that has ended never fires again. -/
theorem Run.not_mem_of_ended {s s' : Bench} {labels : List Label} {number : Nat}
    (hrun : s.Run labels s') (h : s.alarms.Ended number) : Label.fire number ∉ labels := by
  induction hrun with
  | nil s => exact List.not_mem_nil
  | cons hstep _ ih =>
    intro hmem
    rcases List.mem_cons.1 hmem with heq | hlater
    · subst heq
      obtain ⟨⟨alarm, halarm, hnumber, -⟩, -⟩ := hstep
      exact h.not_running alarm halarm hnumber
    · exact ih (hstep.ended h) hlater

end Bench

end Worksheet
