import Worksheet.Proofs.Sync.Timers

/-! # The pace of synchronisation

  Three clocks decide when the server is told of an edit: the last change, the last announcement and
  the deadline of the timer. The log of a bench says what the first two are (`Bench.OnTime`), and a
  deadline is the last announcement plus the greatest latency for as long as it stands. From this
  follow both bounds (`Bench.Paced`): how long an edit waits, and how soon one announcement follows
  another.

  A synchronisation that finds nothing new announces nothing, so it moves no clock but that of the
  last change. After it the latency may be used up with nothing pending.
-/

namespace Worksheet

/-! ### The clocks of a controller -/

namespace Cause.Effect

variable {k : Cause} {c : Controller} {now : Time} {syncs : Bool} {debouncer : Debouncer}
  {order : TimerOrder}

theorem thresholds_eq (h : Effect c now k syncs debouncer order) :
    debouncer.typingPause = c.debouncer.typingPause ∧
      debouncer.maxLatency = c.debouncer.maxLatency := by
  cases h <;> exact ⟨rfl, rfl⟩

/-- Only a change moves the clock of the last change. -/
theorem lastChange_eq (h : Effect c now k syncs debouncer order) :
    debouncer.lastChange = if k = .change then now else c.debouncer.lastChange := by
  cases h <;> rfl

/-- A deadline stands until nothing is pending. -/
theorem deadline?_eq_or {due : Time} (h : Effect c now k syncs debouncer order)
    (hdue : c.debouncer.deadline? = some due) :
    debouncer.deadline? = some due ∨ debouncer.deadline? = none := by
  cases h with
  | pause | late | due | pending => exact .inr rfl
  | arm hidle => exact nomatch hidle.symm.trans hdue
  | keep other hother => exact .inl (hother.symm.trans hdue)
  | early | idle => exact .inl hdue

/-- The greatest latency after the last synchronisation is the only deadline there can be. -/
theorem deadline?_eq (h : Effect c now k syncs debouncer order)
    (hold : ∀ due, c.debouncer.deadline? = some due → due = c.lastSync + c.debouncer.maxLatency)
    {due : Time} (hdue : debouncer.deadline? = some due) :
    due = c.lastSync + c.debouncer.maxLatency := by
  cases h with
  | pause | late | due | pending => exact nomatch hdue
  | arm => exact (Option.some.inj hdue).symm
  | keep other hother => exact hold due (hother.trans hdue)
  | early | idle => exact hold due hdue

/-- A change that starts to wait waits for a time to come. Any other change that waits has found the
    deadline set already. -/
theorem now_lt_or_of_change (h : Effect c now .change syncs debouncer order) {due : Time}
    (hdue : debouncer.deadline? = some due) :
    now < due ∨ c.debouncer.deadline? = some due := by
  cases h with
  | pause | late => exact nomatch hdue
  | arm _ hearly =>
    obtain rfl := Option.some.inj hdue
    exact .inl hearly
  | keep other hother => exact .inr (hother.trans hdue)

/-- Whatever is synchronised before the latency is used up is flushed, or it is a change after a
    pause. -/
theorem of_syncs (h : Effect c now k true debouncer order)
    (hold : ∀ due, c.debouncer.deadline? = some due → due = c.lastSync + c.debouncer.maxLatency)
    (hearly : now < c.lastSync + c.debouncer.maxLatency) :
    k = .flush ∨ (k = .change ∧ c.debouncer.lastChange + c.debouncer.typingPause < now) := by
  cases h with
  | pause hpause => exact .inr ⟨rfl, hpause⟩
  | late _ hlate => exact absurd hlate (Nat.not_le_of_lt hearly)
  | due due hdeadline hdue =>
    rw [hold due hdeadline] at hdue
    exact absurd hdue (Nat.not_le_of_lt hearly)
  | pending => exact .inl rfl

end Cause.Effect

namespace Cause

variable (k : Cause) (c : Controller) (tree : EditorNode) (now : Time)

/-- A notice moves the clock of the last synchronisation, and nothing else does. -/
theorem lastSync_run : (k.run c tree now).1.lastSync =
    if (k.run c tree now).2.isSome then now else c.lastSync := by
  have hopened := k.openedAt_run c tree now
  rcases k.outcome c tree now with ⟨hnone, hkeeps⟩ | ⟨n, hsome, hadopts⟩
  · rw [hnone]
    show Option.getD _ _ = Option.getD _ _
    rw [hkeeps.lastSyncedAt, hopened]
  · rw [hsome]
    show Option.getD _ _ = now
    rw [hadopts.lastSyncedAt]
    rfl

variable {k c tree now}

/-- Only a synchronisation issues a notice. -/
theorem syncs_of_isSome (h : (k.run c tree now).2.isSome) : k.syncs c now = true := by
  rw [run_eq] at h
  by_contra hsyncs
  rw [if_neg hsyncs] at h
  exact nomatch h

end Cause

/-! ### The clocks in a log -/

/-- Whether the server was told something. -/
def Event.isAnnouncement (e : Event) : Bool := e.notice.isSome

def Event.isChange (e : Event) : Bool := e.cause = .change

/-- When something of a kind happened last; the opening counts. -/
def lastTime (kind : Event → Bool) (openedAt : Time) (log : List Event) : Time :=
  ((log.filter kind).getLast?.map Event.time).getD openedAt

theorem lastTime_concat (kind : Event → Bool) (openedAt : Time) (log : List Event) (e : Event) :
    lastTime kind openedAt (log ++ [e]) =
      if kind e then e.time else lastTime kind openedAt log := by
  unfold lastTime
  rw [List.filter_append]
  by_cases h : kind e = true
  · rw [List.filter_cons_of_pos h, List.filter_nil, List.getLast?_concat, if_pos h]
    rfl
  · rw [List.filter_cons_of_neg h, List.filter_nil, List.append_nil, if_neg h]

/-- When the server was told of a text last, by a notice or at the opening. -/
abbrev announcedAt : Time → List Event → Time := lastTime Event.isAnnouncement

/-- When a change was reported last; the opening counts as the first change. -/
abbrev changedAt : Time → List Event → Time := lastTime Event.isChange

/-- An event that announces something follows the announcement before it by the greatest latency, or
    it is a flush, or it is a change after a pause. -/
structure Event.FollowsAt (openedAt : Time) (settings : SyncSettings) (before : List Event)
    (e : Event) : Prop where
  le_time : announcedAt openedAt before ≤ e.time
  cause : e.time < announcedAt openedAt before + settings.maxLatency →
    e.cause = .flush ∨
      (e.cause = .change ∧ changedAt openedAt before + settings.typingPause < e.time)

namespace Bench

variable {openedAt : Time} {settings : SyncSettings} {s : Bench}

/-- Every announcement in the log follows the one before it in due time. -/
def LogPaced (openedAt : Time) (settings : SyncSettings) (log : List Event) : Prop :=
  ∀ before e after, log = before ++ e :: after → e.isAnnouncement = true →
    e.FollowsAt openedAt settings before

theorem LogPaced.concat {log : List Event} {e : Event} (h : LogPaced openedAt settings log)
    (he : e.isAnnouncement = true → e.FollowsAt openedAt settings log) :
    LogPaced openedAt settings (log ++ [e]) := by
  intro before x after hlog hx
  -- the place is that of the new event, or it is in the old log
  rcases after.eq_nil_or_concat with rfl | ⟨rest, last, rfl⟩
  · obtain ⟨rfl, hlast⟩ := List.append_inj' hlog rfl
    obtain rfl := List.singleton_inj.1 hlast
    exact he hx
  · have hsplit : log ++ [e] = (before ++ x :: rest) ++ [last] := by
      rw [hlog, List.append_assoc, List.cons_append, List.concat_eq_append]
    exact h before x rest (List.append_inj' hsplit rfl).1 hx

/-- The controller's clocks are those in the log. -/
structure OnTime (openedAt : Time) (settings : SyncSettings) (s : Bench) : Prop where
  typingPause_eq : s.controller.debouncer.typingPause = settings.typingPause
  maxLatency_eq : s.controller.debouncer.maxLatency = settings.maxLatency
  lastChange_eq : s.controller.debouncer.lastChange = changedAt openedAt s.log
  lastSync_eq : s.controller.lastSync = announcedAt openedAt s.log
  lastSync_le : s.controller.lastSync ≤ s.now
  deadline_eq : ∀ due, s.controller.debouncer.deadline? = some due →
    due = s.controller.lastSync + s.controller.debouncer.maxLatency
  /-- What is in the log is what was issued. -/
  issued_eq : s.issued = s.log.filterMap fun e => e.notice.map (e.time, ·)
  paced : LogPaced openedAt settings s.log

theorem onTime_opening (document : Document) (ids : IdCounter) (settings : SyncSettings)
    (now : Time) (tree : EditorNode) :
    (opening document ids settings now tree).OnTime now settings where
  typingPause_eq := rfl
  maxLatency_eq := rfl
  lastChange_eq := rfl
  lastSync_eq := rfl
  lastSync_le := Nat.le_refl now
  deadline_eq := fun _ hdue => nomatch hdue
  issued_eq := rfl
  paced := by
    intro before e after hlog
    cases before <;> exact nomatch hlog

/-- What happens around the controller changes no clock but the time of day. -/
theorem OnTime.prepare {l : Label} (h : s.OnTime openedAt settings) (hpossible : s.Possible l) :
    (s.prepare l).OnTime openedAt settings := by
  cases l with
  | wait stop => exact { h with lastSync_le := Nat.le_trans h.lastSync_le hpossible }
  | edit | change | fire | flush => exact { h with }

/-- Whatever makes the controller act, the clocks stay those in the log. -/
theorem OnTime.act (h : s.OnTime openedAt settings) (k : Cause) :
    (s.act k).OnTime openedAt settings := by
  have heffect := k.effect s.controller s.now
  have hlastSync : (s.act k).controller.lastSync =
      if (k.run s.controller s.tree s.now).2.isSome then s.now else s.controller.lastSync :=
    k.lastSync_run s.controller s.tree s.now
  constructor
  case typingPause_eq =>
    rw [debouncer_act, heffect.thresholds_eq.1]
    exact h.typingPause_eq
  case maxLatency_eq =>
    rw [debouncer_act, heffect.thresholds_eq.2]
    exact h.maxLatency_eq
  case lastChange_eq =>
    rw [debouncer_act, heffect.lastChange_eq, h.lastChange_eq]
    show _ = lastTime _ _ (s.log ++ [_])
    rw [lastTime_concat]
    simp only [Event.isChange, decide_eq_true_eq]
  case lastSync_eq =>
    rw [hlastSync, h.lastSync_eq]
    show _ = lastTime _ _ (s.log ++ [_])
    rw [lastTime_concat]
    rfl
  case lastSync_le =>
    rw [hlastSync]
    split
    · exact Nat.le_refl _
    · exact h.lastSync_le
  case deadline_eq =>
    intro due hdue
    rw [debouncer_act] at hdue
    rw [debouncer_act, heffect.thresholds_eq.2, hlastSync]
    split
    · next hnotice =>
      -- whoever issues a notice has synchronised, and nothing is pending any more
      rw [Cause.syncs_of_isSome hnotice] at heffect
      exact nomatch heffect.deadline?_eq_none.symm.trans hdue
    · exact heffect.deadline?_eq h.deadline_eq hdue
  case issued_eq =>
    show s.issued ++ _ = (s.log ++ [_]).filterMap _
    rw [List.filterMap_append, ← h.issued_eq]
    cases (k.run s.controller s.tree s.now).2 with
    | none => simp
    | some n => simp
  case paced =>
    -- the new event is the only one to look at, and the clocks in the log are the controller's
    refine h.paced.concat fun hannounces => ?_
    have hsyncs := Cause.syncs_of_isSome hannounces
    rw [hsyncs] at heffect
    constructor
    · rw [← h.lastSync_eq]
      exact h.lastSync_le
    · rw [← h.lastSync_eq, ← h.lastChange_eq, ← h.maxLatency_eq, ← h.typingPause_eq]
      exact heffect.of_syncs h.deadline_eq

theorem OnTime.step {s' : Bench} {l : Label} (hstep : s.Step l s')
    (h : s.OnTime openedAt settings) : s'.OnTime openedAt settings := by
  have hprepared := h.prepare hstep.1
  rcases hstep.eq_or with ⟨-, rfl⟩ | ⟨k, -, rfl⟩
  · exact hprepared
  · exact hprepared.act k

theorem OnTime.run {s' : Bench} {labels : List Label} (hrun : s.Run labels s')
    (h : s.OnTime openedAt settings) : s'.OnTime openedAt settings :=
  hrun.preserves (fun _ _ _ _ hstep hs => hs.step hstep) h

/-! ### How long an edit waits, and how soon the next announcement comes -/

/-- The bounds on synchronisation at a bench that was opened at a time. -/
structure Paced (openedAt : Time) (settings : SyncSettings) (s : Bench) : Prop where
  /-- While something is pending, the deadline is the greatest latency after the last
      announcement. -/
  deadline_eq : s.controller.isPending = true →
    s.controller.debouncer.deadline? = some (announcedAt openedAt s.log + settings.maxLatency)
  /-- The deadline stays the same for as long as something is pending. -/
  deadline_stays : ∀ l s', s.Step l s' → s.controller.isPending = true →
    s'.controller.isPending = true →
    s'.controller.debouncer.deadline? = s.controller.debouncer.deadline?
  /-- A change that is not synchronised at once waits no longer than the greatest latency from now
      on. The deadline is still to come, unless the timer of an earlier change is due and has not
      fired yet. -/
  change_waits : ∀ tree s', s.Step (.change tree) s' → s'.controller.isPending = true →
    ∃ due, s'.controller.debouncer.deadline? = some due ∧ due ≤ s.now + settings.maxLatency ∧
      (s.now < due ∨ ∃ a ∈ s.alarms.running, a.due = due ∧ a.due ≤ s.now)
  /-- What is in the log is what was issued. -/
  issued_eq : s.issued = s.log.filterMap fun e => e.notice.map (e.time, ·)
  /-- When an announcement follows another in less than the greatest latency, it comes from a flush
      or from a change after a pause. -/
  announcements : ∀ before e after, s.log = before ++ e :: after → e.isAnnouncement = true →
    e.FollowsAt openedAt settings before

/-- In a step a deadline stays or goes. -/
theorem Step.deadline?_eq_or {s' : Bench} {l : Label} (hstep : s.Step l s') {due : Time}
    (hdue : s.controller.debouncer.deadline? = some due) :
    s'.controller.debouncer.deadline? = some due ∨
      s'.controller.debouncer.deadline? = none := by
  rw [← controller_prepare s l] at hdue
  rcases hstep.eq_or with ⟨-, rfl⟩ | ⟨k, -, rfl⟩
  · exact .inl hdue
  · rw [debouncer_act]
    exact (k.effect _ _).deadline?_eq_or hdue

theorem Paced.of_onTime (hontime : s.OnTime openedAt settings) (harmed : s.Armed) :
    s.Paced openedAt settings := by
  constructor
  case deadline_eq =>
    intro hpending
    obtain ⟨due, hdue⟩ := Debouncer.isPending_iff.1 hpending
    rw [hdue, hontime.deadline_eq due hdue, hontime.lastSync_eq, hontime.maxLatency_eq]
  case deadline_stays =>
    intro l s' hstep hbefore hafter
    obtain ⟨due, hdue⟩ := Debouncer.isPending_iff.1 hbefore
    obtain ⟨due', hdue'⟩ := Debouncer.isPending_iff.1 hafter
    rcases hstep.deadline?_eq_or hdue with hsame | hgone
    · rw [hsame, hdue]
    · cases hgone.symm.trans hdue'
  case change_waits =>
    intro tree s' hstep hpending
    obtain ⟨-, rfl⟩ := hstep
    obtain ⟨due, hdue⟩ := Debouncer.isPending_iff.1 hpending
    have hdebounced : (Cause.change.debounce s.controller s.now).deadline? = some due := by
      rw [← hdue]
      exact congrArg Debouncer.deadline? (debouncer_act { s with tree } .change).symm
    have heffect := Cause.change.effect s.controller s.now
    refine ⟨due, hdue, ?_, ?_⟩
    · rw [heffect.deadline?_eq hontime.deadline_eq hdebounced, hontime.maxLatency_eq]
      exact Nat.add_le_add_right hontime.lastSync_le _
    · by_cases hlt : s.now < due
      · exact .inl hlt
      · -- the deadline was set before, so its timer runs
        have hold := (heffect.now_lt_or_of_change hdebounced).resolve_left hlt
        rcases harmed.eq_or with ⟨hidle, -⟩ | ⟨a, -, hrunning, hdeadline, -⟩
        · have hpending := Debouncer.isPending_iff.2 ⟨due, hold⟩
          cases hidle.symm.trans hpending
        · have heq : a.due = due := Option.some.inj (hdeadline.symm.trans hold)
          refine .inr ⟨a, ?_, heq, heq ▸ Nat.le_of_not_lt hlt⟩
          rw [hrunning]
          exact List.mem_singleton_self a
  case issued_eq => exact hontime.issued_eq
  case announcements => exact hontime.paced

/-- In every run an edit waits no longer than the greatest latency, and the server is told no more
    often than once in that time, flushes and changes after a pause apart. -/
theorem paced_of_run {document : Document} {ids : IdCounter} {settings : SyncSettings} {now : Time}
    {tree : EditorNode} {labels : List Label} {s : Bench}
    (hrun : (opening document ids settings now tree).Run labels s) : s.Paced now settings :=
  .of_onTime ((onTime_opening document ids settings now tree).run hrun)
    ((armed_opening document ids settings now tree).run hrun)

/-- Somebody types without a pause until the timer is due, and then once more before it fires. -/
def typingOn : List Label :=
  [.wait 500, .change (note ['b']).editorTree, .wait 1000, .change (note ['c']).editorTree,
    .wait 1200, .fire 0, .wait 1300, .change (note ['d']).editorTree, .flush]

/-- The second announcement follows the first at once, for it is a flush. -/
theorem paced_of_typingOn :
    ∃ s, (opening (note ['a']) {} ⟨1000, 1000⟩ 0 (note ['a']).editorTree).Run typingOn s ∧
      s.issued = [(1200, ⟨2, ['c']⟩), (1300, ⟨3, ['d']⟩)] ∧ s.Paced 0 ⟨1000, 1000⟩ := by
  have hrun : (opening (note ['a']) {} ⟨1000, 1000⟩ 0 (note ['a']).editorTree).Run typingOn _ :=
    run_after (by decide +kernel)
  exact ⟨_, hrun, by decide +kernel, paced_of_run hrun⟩

/-- A change that waits need not have its deadline before it: the timer of the change before it may
    be due and not have fired yet. -/
theorem change_waits_at_deadline :
    ¬ ∀ (document : Document) (ids : IdCounter) (settings : SyncSettings) (now : Time)
      (tree : EditorNode) (labels : List Label) (s s' : Bench) (edited : EditorNode),
      (opening document ids settings now tree).Run labels s → s.Step (.change edited) s' →
      s'.controller.isPending = true →
      ∃ due, s'.controller.debouncer.deadline? = some due ∧ s.now < due ∧
        due ≤ s.now + settings.maxLatency := by
  intro h
  have hrun : (opening (note ['a']) {} ⟨1000, 1000⟩ 0 (note ['a']).editorTree).Run
      [.wait 500, .change (note ['b']).editorTree, .wait 1000] _ :=
    run_after (by decide +kernel)
  obtain ⟨due, hdue, hlt, -⟩ := h _ _ _ _ _ _ _ _ (note ['c']).editorTree hrun ⟨trivial, rfl⟩
    (by decide +kernel)
  have hdeadline : some 1000 = some due := hdue
  obtain rfl := Option.some.inj hdeadline
  exact absurd hlt (by decide +kernel)

end Bench

end Worksheet
