import Worksheet.Proofs.Document.Ranges
import Worksheet.Proofs.Session.Opening
import Worksheet.Proofs.Sync.Desk

/-! # What the server has been told

  The controller keeps a document, its text and its version, and the server is told of every new
  text. These move together or not at all: each part that runs while nobody else holds the document
  either leaves all of them alone and issues nothing, or it adopts a new document with a new text
  and issues one notice of it (`Controller.Outcome`). So in every run the server has been told of
  exactly the texts the controller had, in order and with versions counted up by one
  (`Desk.InStep`).
-/

namespace Worksheet

/-! ### The outcome of one step -/

namespace Controller

/-- The document that a synchronisation finds in the editor's tree. -/
def found (c : Controller) (tree : EditorNode) : Document :=
  (tree.extractDocument c.uri c.document.grammar c.ids).1

/-- What the server is told of stays as it is. -/
structure Keeps (c c' : Controller) : Prop where
  document : c'.document = c.document
  text : c'.text = c.text
  version : c'.version = c.version
  lastSyncedAt : c'.lastSyncedAt = c.lastSyncedAt

/-- The document that is found in the tree replaces the old one, and a notice tells its text. -/
structure Adopts (c : Controller) (tree : EditorNode) (now : Time) (c' : Controller) (n : Notice) :
    Prop where
  document : c'.document = (c.found tree).updateBounds.1
  text : c'.text = (c.found tree).write
  text_ne : c'.text ≠ c.text
  version : c'.version = c.version + 1
  lastSyncedAt : c'.lastSyncedAt = some now
  notice : n = ⟨c'.version, c'.text⟩

/-- All that a step of a controller can do: keep everything and issue nothing, or adopt a document
    and issue one notice. -/
def Outcome (c : Controller) (tree : EditorNode) (now : Time) (r : Controller × Option Notice) :
    Prop :=
  (r.2 = none ∧ c.Keeps r.1) ∨ ∃ n, r.2 = some n ∧ c.Adopts tree now r.1 n

/-- A synchronisation that finds the text the server has changes nothing but the counter. -/
theorem sync_of_write_eq {c : Controller} {tree : EditorNode} (now : Time)
    (h : (c.found tree).write = c.text) :
    (c.sync tree now).2 = none ∧ c.Keeps (c.sync tree now).1 := by
  unfold found at h
  simp only [sync, h, if_true]
  exact ⟨trivial, rfl, rfl, rfl, rfl⟩

/-- A synchronisation that finds another text adopts it. -/
theorem sync_of_write_ne {c : Controller} {tree : EditorNode} (now : Time)
    (h : (c.found tree).write ≠ c.text) :
    ∃ n, (c.sync tree now).2 = some n ∧ c.Adopts tree now (c.sync tree now).1 n := by
  have hne := h
  unfold found at hne
  simp only [sync, hne, if_false]
  exact ⟨_, rfl, rfl, rfl, h, rfl, rfl, rfl⟩

theorem outcome_sync (c : Controller) (tree : EditorNode) (now : Time) :
    c.Outcome tree now (c.sync tree now) := by
  by_cases h : (c.found tree).write = c.text
  · exact .inl (sync_of_write_eq now h)
  · exact .inr (sync_of_write_ne now h)

/-- The outcome depends on nothing that the debouncer and the timer are. -/
theorem Outcome.congr {c c' : Controller} {tree : EditorNode} {now : Time}
    {r : Controller × Option Notice} (h : c'.Outcome tree now r)
    (hfound : c'.found tree = c.found tree) (hkeeps : c.Keeps c') : c.Outcome tree now r := by
  rcases h with ⟨hnone, hk⟩ | ⟨n, hsome, ha⟩
  · exact .inl ⟨hnone, hk.document.trans hkeeps.document, hk.text.trans hkeeps.text,
      hk.version.trans hkeeps.version, hk.lastSyncedAt.trans hkeeps.lastSyncedAt⟩
  · exact .inr ⟨n, hsome, hfound ▸ ha.document, hfound ▸ ha.text, hkeeps.text ▸ ha.text_ne,
      hkeeps.version ▸ ha.version, ha.lastSyncedAt, ha.notice⟩

theorem outcome_change (c : Controller) (tree : EditorNode) (now : Time) :
    c.Outcome tree now (c.change tree now) := by
  unfold change
  rcases c.debouncer.change now c.lastSync with ⟨debouncer, directive⟩
  cases directive with
  | syncNow => exact (outcome_sync _ tree now).congr rfl ⟨rfl, rfl, rfl, rfl⟩
  | schedule deadline => exact .inl ⟨rfl, rfl, rfl, rfl, rfl⟩
  | keep => exact .inl ⟨rfl, rfl, rfl, rfl, rfl⟩

theorem outcome_fire (c : Controller) (tree : EditorNode) (now : Time) :
    c.Outcome tree now (c.fire tree now) := by
  unfold fire
  split
  · exact (outcome_sync _ tree now).congr rfl ⟨rfl, rfl, rfl, rfl⟩
  · exact .inl ⟨rfl, rfl, rfl, rfl, rfl⟩

theorem outcome_flush (c : Controller) (tree : EditorNode) (now : Time) :
    c.Outcome tree now (c.flush tree now) := by
  unfold flush
  split
  · exact (outcome_sync _ tree now).congr rfl ⟨rfl, rfl, rfl, rfl⟩
  · exact .inl ⟨rfl, rfl, rfl, rfl, rfl⟩

end Controller

/-! ### In step with the server -/

namespace Desk

/-- Every text the server has been told of, with its version: the opening first. -/
def announced (opening : Notice) (s : Desk) : List Notice := opening :: s.issued.map (·.2)

/-- The controller and what the server has been told agree. -/
structure InStep (opening : Notice) (s : Desk) : Prop where
  /-- The text is that of the current document. -/
  text_eq : s.controller.text = s.controller.document.write
  /-- The current document has its ranges. -/
  bounds : s.controller.document.HasBounds
  /-- The version counts the notices. -/
  version_eq : s.controller.version = opening.version + s.issued.length
  /-- Versions are counted up by one from that of the opening. -/
  numbered : ∀ (k : Nat) (n : Notice), (s.announced opening)[k]? = some n →
    n.version = opening.version + k
  /-- Every text differs from the one announced just before it. -/
  fresh : ∀ (k : Nat) (m n : Notice), (s.announced opening)[k]? = some m →
    (s.announced opening)[k + 1]? = some n → n.text ≠ m.text
  /-- What was announced last is what the controller has. -/
  last : (s.announced opening).getLast? = some ⟨s.controller.version, s.controller.text⟩

/-- A step that keeps what the server is told of and issues nothing preserves the agreement. -/
theorem InStep.of_keeps {opening : Notice} {s s' : Desk} (h : s.InStep opening)
    (hkeeps : s.controller.Keeps s'.controller) (hissued : s'.issued = s.issued) :
    s'.InStep opening := by
  have hannounced : s'.announced opening = s.announced opening := by
    unfold announced
    rw [hissued]
  constructor
  · rw [hkeeps.text, hkeeps.document]
    exact h.text_eq
  · rw [hkeeps.document]
    exact h.bounds
  · rw [hkeeps.version, hissued]
    exact h.version_eq
  · rw [hannounced]
    exact h.numbered
  · rw [hannounced]
    exact h.fresh
  · rw [hannounced, hkeeps.version, hkeeps.text]
    exact h.last

/-- A step that adopts a document and issues its notice preserves the agreement. -/
theorem InStep.of_adopts {opening : Notice} {s s' : Desk} {tree : EditorNode} {t : Time}
    {n : Notice} (h : s.InStep opening) (hadopts : s.controller.Adopts tree t s'.controller n)
    (hissued : s'.issued = s.issued ++ [(t, n)]) : s'.InStep opening := by
  have hannounced : s'.announced opening = s.announced opening ++ [n] := by
    unfold announced
    rw [hissued, List.map_append]
    rfl
  have hlength : (s.announced opening).length = s.issued.length + 1 := by simp [announced]
  have hversion : s'.controller.version = opening.version + (s.issued.length + 1) := by
    rw [hadopts.version, h.version_eq]
    omega
  -- a place of the longer list is one of the shorter list, or it is the place of the new notice
  have hplace : ∀ (k : Nat) (m : Notice), (s'.announced opening)[k]? = some m →
      (s.announced opening)[k]? = some m ∨ k = (s.announced opening).length ∧ m = n := by
    intro k m hm
    rw [hannounced] at hm
    rcases Nat.lt_trichotomy k (s.announced opening).length with hlt | heq | hgt
    · rw [List.getElem?_append_left hlt] at hm
      exact .inl hm
    · subst heq
      rw [List.getElem?_concat_length] at hm
      exact .inr ⟨rfl, (Option.some.inj hm).symm⟩
    · rw [List.getElem?_eq_none (by simp; omega)] at hm
      cases hm
  constructor
  · rw [hadopts.text, hadopts.document, Document.write_updateBounds]
  · rw [hadopts.document]
    exact Document.hasBounds_updateBounds _
  · rw [hversion, hissued, List.length_append]
    rfl
  · intro k m hm
    rcases hplace k m hm with hold | ⟨hk, hmn⟩
    · exact h.numbered k m hold
    · rw [hmn, hadopts.notice, hk, hlength]
      exact hversion
  · intro k m m' hm hm'
    rcases hplace (k + 1) m' hm' with hold' | ⟨hk, hmn⟩
    · -- both are old
      have hlt : k < (s.announced opening).length := by
        have := (List.getElem?_eq_some_iff.1 hold').1
        omega
      rw [hannounced, List.getElem?_append_left hlt] at hm
      exact h.fresh k m m' hm hold'
    · -- the second is the new notice, and the first was the last of the old ones
      have hlast := h.last
      rw [List.getLast?_eq_getElem?, ← hk, Nat.add_sub_cancel] at hlast
      rw [hannounced, List.getElem?_append_left (by omega), hlast] at hm
      rw [← Option.some.inj hm, hmn, hadopts.notice]
      exact hadopts.text_ne
  · rw [hannounced, List.getLast?_concat, hadopts.notice]

theorem InStep.carry {opening : Notice} {s : Desk} {r : Controller × Option Notice}
    (h : s.InStep opening) (hr : s.controller.Outcome s.tree s.now r) :
    (s.carry r).InStep opening := by
  rcases hr with ⟨hnone, hkeeps⟩ | ⟨n, hsome, hadopts⟩
  · refine h.of_keeps hkeeps ?_
    show s.issued ++ r.2.toList.map (s.now, ·) = s.issued
    rw [hnone]
    exact List.append_nil _
  · refine h.of_adopts hadopts ?_
    show s.issued ++ r.2.toList.map (s.now, ·) = _
    rw [hsome]
    rfl

/-- Every step preserves the agreement. -/
theorem InStep.step {opening : Notice} {s s' : Desk} {l : Label} (hstep : s.Step l s')
    (h : s.InStep opening) : s'.InStep opening := by
  cases l with
  | edit tree =>
    obtain rfl := hstep
    exact h.of_keeps ⟨rfl, rfl, rfl, rfl⟩ rfl
  | wait stop =>
    obtain ⟨-, rfl⟩ := hstep
    exact h.of_keeps ⟨rfl, rfl, rfl, rfl⟩ rfl
  | report =>
    obtain rfl := hstep
    exact h.carry (Controller.outcome_change _ _ _)
  | fire =>
    obtain rfl := hstep
    exact h.carry (Controller.outcome_fire _ _ _)
  | flush =>
    obtain rfl := hstep
    exact h.carry (Controller.outcome_flush _ _ _)
  | stop =>
    obtain rfl := hstep
    exact h.of_keeps ⟨rfl, rfl, rfl, rfl⟩ rfl

/-- Every run preserves the agreement. -/
theorem InStep.run {opening : Notice} {s s' : Desk} {labels : List Label}
    (hrun : Run s labels s') (h : s.InStep opening) : s'.InStep opening :=
  hrun.preserves (fun _ _ _ hstep hs => hs.step hstep) h

/-- A document that has just been announced is in step with the server. -/
theorem inStep_start {document : Document} (hbounds : document.HasBounds) (ids : IdCounter)
    (settings : SyncSettings) (now : Time) (tree : EditorNode) :
    InStep ⟨Controller.initialVersion, document.write⟩
      ⟨.start document ids settings now, tree, now, []⟩ := by
  refine ⟨rfl, hbounds, rfl, ?_, ?_, rfl⟩
  · intro k n hn
    cases k with
    | zero => rw [← Option.some.inj hn]; rfl
    | succ k => exact nomatch hn
  · intro k m n _ hn
    exact nomatch hn

end Desk

/-- From the opening of a file on, in every run, the controller and the server stay in step: the
    controller's text is that of its document, whose ranges are found; its version counts the
    notices; each notice has the next version and a new text; and the last text announced is the
    controller's. A synchronisation that finds this very text issues nothing and changes none of
    this. -/
theorem Session.inStep_of_run {s s' : Session} {path source : Text}
    (hopen : Session.openFile path source s = (.ok (), s')) :
    ∃ (f : OpenFile) (o : OpenedDocument), s'.current = some f ∧
      o.uri = f.controller.uri ∧ o.version = Controller.initialVersion ∧
      (s.server.isInTime = true → ∃ t, (t, Message.opened o) ∈ s'.server.log) ∧
      ∀ (labels : List Desk.Label) (d : Desk), (Desk.atOpening s' f).Run labels d →
        d.InStep ⟨o.version, o.text⟩ ∧
        ∀ (tree : EditorNode) (now : Time), (d.controller.found tree).write = d.controller.text →
          (d.controller.sync tree now).2 = none ∧
          d.controller.Keeps (d.controller.sync tree now).1 := by
  obtain ⟨dialect, uri, document, o, hbounds, hcurrent, htree, huri, hversion, htext, hlog⟩ :=
    Session.openFile_spec hopen
  refine ⟨_, o, hcurrent, huri, hversion, hlog, ?_⟩
  intro labels d hrun
  refine ⟨?_, fun tree now h => Controller.sync_of_write_eq now h⟩
  have hdocument : document.HasBounds := by
    have h := Document.hasBounds_updateBounds (dialect.parseDocument uri source {}).1
    rwa [hbounds] at h
  rw [hversion, htext]
  exact Desk.InStep.run hrun (Desk.inStep_start hdocument _ _ _ _)

/-- A session with a server that takes twenty milliseconds over every call. -/
def Session.swift : Session :=
  .start ⟨⟨500, 5000⟩, ⟨1000, ⟨['c'], ['m'], ['l']⟩⟩, ⟨.coqmd, false⟩, ⟨['i']⟩⟩ 20

/-- The tree of one cell of code that is new. -/
def EditorNode.newCell (content : Text) : EditorNode where
  kind := .doc
  children := [{ kind := .code, text := content }]

/-- Somebody edits twice without a pause, and a timer fires at the deadline; the next edit comes
    after a pause; and the file is closed while the last edit still waits. -/
def Desk.editing : List Desk.Label :=
  [.wait 100, .edit (.newCell ['a']), .report, .wait 200, .edit (.newCell ['b']), .report,
    .wait 5020, .fire, .edit (.newCell ['c']), .report, .wait 5100, .edit (.newCell ['d']), .report,
    .flush, .stop]

/-- A session opens a file of Coq, and somebody edits and closes it. The server is told of the
    second edit when the timer fires, of the third at once and of the last by the flush. -/
theorem Session.inStep_of_opened_coq :
    ∃ s' f o d, Session.openFile ['/', 'a', '.', 'v'] ['Q', 'e', 'd', '.'] swift = (.ok (), s') ∧
      s'.current = some f ∧ o.uri = f.controller.uri ∧ o.version = 1 ∧
      (∃ t, (t, Message.opened o) ∈ s'.server.log) ∧
      (Desk.atOpening s' f).Run Desk.editing d ∧
      d.issued = [(5020, ⟨2, ['b']⟩), (5020, ⟨3, ['c']⟩), (5100, ⟨4, ['d']⟩)] ∧
      d.InStep ⟨o.version, o.text⟩ ∧
      (d.controller.sync d.tree d.now).2 = none ∧
      d.controller.Keeps (d.controller.sync d.tree d.now).1 := by
  have hopen : Session.openFile ['/', 'a', '.', 'v'] ['Q', 'e', 'd', '.'] swift = _ :=
    Session.openFile_eq rfl rfl (Document.updateBounds_eq _)
  obtain ⟨f, o, hcurrent, huri, hversion, hlog, hinStep⟩ := Session.inStep_of_run hopen
  obtain rfl := Option.some.inj hcurrent
  obtain ⟨hagree, hidle⟩ := hinStep Desk.editing _ (Desk.run_after (by decide +kernel))
  exact ⟨_, _, o, _, hopen, hcurrent, huri, hversion, hlog rfl, Desk.run_after (by decide +kernel),
    by decide +kernel, hagree, hidle _ _ (by decide +kernel)⟩

end Worksheet
