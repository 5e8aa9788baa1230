import Worksheet.Proofs.Sync.Timers

/-! # No reported edit is lost

  With nothing pending, the controller has the text of the tree in the editor (`Bench.CaughtUp`).
  Every step preserves this, as long as each edit is reported when it is made. Together with the
  account of the timers (`Bench.Armed`) this gives all that is promised about reported edits
  (`Bench.NothingLost`).
-/

namespace Worksheet

namespace Bench

theorem text_act_of_syncs {s : Bench} {k : Cause} (h : k.syncs s.controller s.now = true) :
    (s.act k).controller.text = (s.act k).written := by
  rw [text_act, if_pos h, written_act]
  rfl

theorem text_act_of_not_syncs {s : Bench} {k : Cause} (h : k.syncs s.controller s.now = false) :
    (s.act k).controller.text = s.controller.text := by
  rw [text_act, h]
  rfl

/-! ### The text between two synchronisations -/

/-- A step leaves the text alone or brings that of the tree. -/
theorem Step.text_eq_or {s s' : Bench} {l : Label} (hstep : s.Step l s') :
    s'.controller.text = s.controller.text ∨ s'.controller.text = s'.written := by
  rcases hstep.eq_or with ⟨-, rfl⟩ | ⟨k, -, rfl⟩
  · rw [controller_prepare]
    exact .inl rfl
  · cases hsyncs : k.syncs (s.prepare l).controller (s.prepare l).now with
    | true => exact .inr (text_act_of_syncs hsyncs)
    | false =>
      rw [text_act_of_not_syncs hsyncs, controller_prepare]
      exact .inl rfl

/-- At some point of a run, the tree in the editor is written as the given text. -/
def WrittenDuring (s : Bench) (labels : List Label) (s' : Bench) (text : Text) : Prop :=
  ∃ before after m, labels = before ++ after ∧ s.Run before m ∧ m.Run after s' ∧ text = m.written

/-- The text at the end of a run is that of its start, or that of a tree which the editor held in
    between. -/
theorem Run.text_eq_or {s s' : Bench} {labels : List Label} (hrun : s.Run labels s') :
    s'.controller.text = s.controller.text ∨ s.WrittenDuring labels s' s'.controller.text := by
  induction hrun with
  | nil s => exact .inl rfl
  | @cons s t s' l labels hstep hrest ih =>
    -- either a later step brought the text, or this step did, or none
    rcases ih with hsame | ⟨before, after, m, rfl, hbefore, hafter, htext⟩
    · rcases hstep.text_eq_or with hkept | hbrought
      · exact .inl (hsame.trans hkept)
      · exact .inr ⟨[l], labels, t, rfl, .cons hstep (.nil t), hrest, hsame.trans hbrought⟩
    · exact .inr ⟨l :: before, after, m, rfl, .cons hstep hbefore, hafter, htext⟩

/-- From where the controller has the text of the tree, every later text is that of a tree which the
    editor held since then. -/
theorem Run.writtenDuring {s s' : Bench} {labels : List Label} (hrun : s.Run labels s')
    (h : s.controller.text = s.written) : s.WrittenDuring labels s' s'.controller.text := by
  rcases hrun.text_eq_or with hsame | hlater
  · exact ⟨[], labels, s, rfl, .nil s, hrun, hsame.trans h⟩
  · exact hlater

/-! ### Caught up with the editor -/

/-- With nothing pending, the controller has the text of the tree in the editor. -/
def CaughtUp (s : Bench) : Prop :=
  s.controller.isPending = false → s.controller.text = s.written

/-- After an edit was reported, nothing more than what is now pending is missing. -/
theorem caughtUp_act_change (s : Bench) : (s.act .change).CaughtUp := by
  intro hidle
  cases hsyncs : Cause.change.syncs s.controller s.now with
  | true => exact text_act_of_syncs hsyncs
  | false =>
    -- an edit that is not synchronised is pending, so this does not happen with nothing pending
    have heffect := Cause.change.effect s.controller s.now
    rw [hsyncs] at heffect
    have hpending : (s.act .change).controller.isPending = true := by
      unfold Controller.isPending
      rw [Debouncer.isPending_eq, debouncer_act]
      exact heffect.isSome_of_change
    exact nomatch hidle.symm.trans hpending

theorem CaughtUp.act {s : Bench} {k : Cause} (h : s.CaughtUp) (hk : k ≠ .change) :
    (s.act k).CaughtUp := by
  intro hidle
  cases hsyncs : k.syncs s.controller s.now with
  | true => exact text_act_of_syncs hsyncs
  | false =>
    have heffect := k.effect s.controller s.now
    rw [hsyncs] at heffect
    have hwas : s.controller.isPending = false := by
      rw [← hidle]
      unfold Controller.isPending
      rw [debouncer_act, heffect.debouncer_eq hk]
    rw [text_act_of_not_syncs hsyncs, written_act]
    exact h hwas

/-- Every step preserves this, except a secret edit. -/
theorem CaughtUp.step {s s' : Bench} {l : Label} (hstep : s.Step l s')
    (hreported : l.isReported = true) (h : s.CaughtUp) : s'.CaughtUp := by
  obtain ⟨-, rfl⟩ := hstep
  cases l with
  | wait stop => exact h
  | edit tree => exact nomatch hreported
  | change tree => exact caughtUp_act_change _
  | fire number =>
    have hprepared : (s.prepare (.fire number)).CaughtUp := h
    exact hprepared.act (by decide)
  | flush => exact h.act (by decide)

theorem CaughtUp.run {s s' : Bench} {labels : List Label} (hrun : s.Run labels s')
    (hreported : ∀ l ∈ labels, l.isReported = true) (h : s.CaughtUp) : s'.CaughtUp :=
  hrun.preserves (fun l hl _ _ hstep hs => hs.step hstep (hreported l hl)) h

/-- After a flush nothing is pending. -/
theorem isPending_act_flush (s : Bench) : (s.act .flush).controller.isPending = false := by
  unfold Controller.isPending
  rw [debouncer_act]
  rfl

/-! ### What is promised about reported edits -/

/-- What is promised about the edits that were reported. -/
structure NothingLost (s : Bench) : Prop where
  /-- While something is pending exactly one timer runs. -/
  pending_iff : s.controller.isPending = true ↔ ∃ a, s.alarms.running = [a]
  /-- With nothing pending no timer runs. -/
  idle_iff : s.controller.isPending = false ↔ s.alarms.running = []
  /-- The timer that runs is due at the deadline, and the controller can cancel it. -/
  due_eq : ∀ a ∈ s.alarms.running,
    s.controller.debouncer.deadline? = some a.due ∧ s.alarms.held = some a.number
  /-- The controller has noted its timer at the deadline. -/
  timer_eq : s.controller.timer = s.controller.debouncer.deadline?
  /-- With nothing pending, the controller's text is what the areas of the tree in the editor are
      written as. -/
  text_eq : s.controller.isPending = false → ∀ ids,
    s.controller.text = Area.write s.controller.document.grammar (s.tree.extract ids).1
  /-- So is the text that is saved now. -/
  saved_eq : ∀ ids,
    (s.act .flush).controller.text =
      Area.write s.controller.document.grammar (s.tree.extract ids).1
  /-- When other things happen between the flush of saving and the reading of the text, the text is
      that of a tree which the editor held meanwhile. -/
  saved_during : ∀ labels s', (s.act .flush).Run labels s' →
    ∃ before after m, labels = before ++ after ∧ (s.act .flush).Run before m ∧ m.Run after s' ∧
      ∀ ids, s'.controller.text =
        Area.write m.controller.document.grammar (m.tree.extract ids).1
  /-- As long as something stays pending, no other timer takes the place of the one that runs. -/
  running_eq : ∀ l s', s.Step l s' → s.controller.isPending = true →
    s'.controller.isPending = true → s'.alarms.running = s.alarms.running
  /-- The timer that runs fires whenever it is due. Then nothing is pending any more, and the
      controller's text is that of the tree. -/
  fires : ∀ a ∈ s.alarms.running, ∀ stop, s.now ≤ stop → a.due ≤ stop →
    ∃ s', s.Run [.wait stop, .fire a.number] s' ∧ s'.tree = s.tree ∧
      s'.controller.isPending = false ∧ ∀ ids, s'.controller.text =
        Area.write s'.controller.document.grammar (s'.tree.extract ids).1
  /-- A timer that has fired or was cancelled never fires again. -/
  ended : ∀ number < s.alarms.started, (∀ a ∈ s.alarms.running, a.number ≠ number) →
    ∀ labels s', s.Run labels s' → Label.fire number ∉ labels

theorem NothingLost.of_armed {s : Bench} (harmed : s.Armed) (hcaught : s.CaughtUp) :
    s.NothingLost := by
  have hsaved : (s.act .flush).controller.text = (s.act .flush).written :=
    hcaught.act (by decide) s.isPending_act_flush
  constructor
  case pending_iff =>
    rcases harmed.eq_or with ⟨hidle, hrunning⟩ | ⟨a, hpending, hrunning, -⟩
    · simp [hidle, hrunning]
    · simp [hpending, hrunning]
  case idle_iff =>
    rcases harmed.eq_or with ⟨hidle, hrunning⟩ | ⟨a, hpending, hrunning, -⟩
    · simp [hidle, hrunning]
    · simp [hpending, hrunning]
  case due_eq =>
    intro a hmem
    rcases harmed.eq_or with ⟨-, hrunning⟩ | ⟨b, -, hrunning, hdeadline, hheld⟩
    · rw [hrunning] at hmem
      exact nomatch hmem
    · rw [hrunning, List.mem_singleton] at hmem
      subst hmem
      exact ⟨hdeadline, hheld⟩
  case timer_eq => exact harmed.timer_eq
  case text_eq =>
    intro hidle ids
    rw [write_extract_eq_written]
    exact hcaught hidle
  case saved_eq =>
    intro ids
    rw [write_extract_eq_written, hsaved, written_act]
  case saved_during =>
    intro labels s' hrun
    obtain ⟨before, after, m, hlabels, hbefore, hafter, htext⟩ := hrun.writtenDuring hsaved
    refine ⟨before, after, m, hlabels, hbefore, hafter, fun ids => ?_⟩
    rw [write_extract_eq_written]
    exact htext
  case running_eq =>
    intro l s' hstep hbefore hafter
    exact harmed.running_eq hstep hbefore hafter
  case fires =>
    intro a hmem stop hstop hdue
    -- waiting changes nothing but the time, so the timer still runs
    have hwaited : ({ s with now := stop } : Bench).Armed := ⟨harmed.awaits, harmed.timer_eq⟩
    have hidle := hwaited.isPending_fire hmem hdue
    have htext := text_act_of_syncs (hwaited.fire hmem hdue).1
    refine ⟨_, .cons ⟨hstop, rfl⟩ (.cons ⟨⟨a, hmem, rfl, hdue⟩, rfl⟩ (.nil _)), rfl, hidle, ?_⟩
    intro ids
    rw [write_extract_eq_written]
    exact htext
  case ended =>
    intro number hstarted hnot labels s' hrun
    exact hrun.not_mem_of_ended ⟨hstarted, hnot⟩

/-- A file that is opened in a session is at its opening, and the tree in the editor is written as
    its document is. -/
theorem opening_of_openFile {s s' : Session} {path source : Text}
    (hopen : Session.openFile path source s = (.ok (), s')) :
    ∃ document ids f, s'.current = some f ∧
      (opening document ids s'.settings.sync s'.now s'.editor.tree).toDesk = Desk.atOpening s' f ∧
      ∀ ids, Area.write document.grammar (s'.editor.tree.extract ids).1 = document.write := by
  obtain ⟨dialect, uri, document, o, -, hcurrent, htree, -⟩ := Session.openFile_spec hopen
  refine ⟨document, (dialect.parseDocument uri source {}).2, _, hcurrent, rfl, fun ids => ?_⟩
  rw [htree, EditorNode.write_extract, Document.writeIn_editorTree]
  rfl

/-- No reported edit is lost: from an opening on at which the tree in the editor is written as the
    document is, and as long as every edit is reported when it is made. -/
theorem nothingLost_of_run {document : Document} {ids : IdCounter} {settings : SyncSettings}
    {now : Time} {tree : EditorNode} {labels : List Label} {s : Bench}
    (hloaded : ∀ ids, Area.write document.grammar (tree.extract ids).1 = document.write)
    (hrun : (opening document ids settings now tree).Run labels s)
    (hreported : ∀ l ∈ labels, l.isReported = true) : s.NothingLost := by
  have hcaught : (opening document ids settings now tree).CaughtUp := by
    intro _
    rw [← write_extract_eq_written _ {}]
    exact (hloaded {}).symm
  exact .of_armed ((armed_opening document ids settings now tree).run hrun)
    (hcaught.run hrun hreported)

/-- Somebody types twice without a pause, a timer fires at the deadline, somebody types after a
    pause, and what is typed last still waits for the second timer. -/
def typing : List Label :=
  [.wait 100, .change (note ['b']).editorTree, .wait 200, .change (note ['c']).editorTree,
    .wait 1000, .fire 0, .change (note ['d']).editorTree, .wait 1200,
    .change (note ['e']).editorTree]

theorem nothingLost_of_typing :
    ∃ s, (opening (note ['a']) {} ⟨250, 1000⟩ 0 (note ['a']).editorTree).Run typing s ∧
      s.alarms.running = [⟨1, 2000⟩] ∧ s.controller.text = ['d'] ∧ s.NothingLost := by
  have hloaded : ∀ ids, Area.write (note ['a']).grammar ((note ['a']).editorTree.extract ids).1 =
      (note ['a']).write := by
    intro ids
    rw [EditorNode.write_extract, Document.writeIn_editorTree]
    rfl
  have hrun : (opening (note ['a']) {} ⟨250, 1000⟩ 0 (note ['a']).editorTree).Run typing _ :=
    run_after (by decide +kernel)
  exact ⟨_, hrun, by decide +kernel, by decide +kernel,
    nothingLost_of_run hloaded hrun (by decide)⟩

end Bench

end Worksheet
