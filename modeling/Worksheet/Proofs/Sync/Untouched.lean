import Worksheet.Proofs.Editor.Extraction
import Worksheet.Proofs.Sync.Announced

/-! # A document that nobody edits

  A document is loaded into the editor as a tree, and the tree gives the areas of the document back.
  So a synchronisation that finds the tree as it was loaded finds the text the server has, and does
  nothing. While nobody edits the tree, whatever else happens, the controller stays with the
  document, the text and the version of the opening, and the server is told nothing
  (`Desk.Untouched`).
-/

namespace Worksheet

namespace Controller

/-- Where the tree is written as the text the server has, whatever a controller does leaves the
    document, its text and its version alone, and issues nothing. -/
theorem Outcome.keeps {c : Controller} {tree : EditorNode} {now : Time}
    {r : Controller × Option Notice} (h : c.Outcome tree now r)
    (hwrite : (c.found tree).write = c.text) : r.2 = none ∧ c.Keeps r.1 := by
  rcases h with hkeeps | ⟨n, -, hadopts⟩
  · exact hkeeps
  · -- only a new text is adopted
    have htext := hadopts.text.trans hwrite
    exact absurd htext hadopts.text_ne

/-- A document that is found in the tree of the current document is written as that is. -/
theorem write_found_editorTree (c : Controller) :
    (c.found c.document.editorTree).write = c.document.write := by
  show Area.write c.document.grammar (c.document.editorTree.extract c.ids).1 = _
  rw [EditorNode.write_extract, Document.writeIn_editorTree]
  rfl

end Controller

namespace Desk

/-- Whether something leaves the tree in the editor alone. -/
def Label.keepsTree : Label → Bool
  | .edit _ => false
  | _ => true

/-- The tree in the editor is that of the document, and the document is that of the opening. -/
structure Untouched (opened : Controller) (s : Desk) : Prop where
  tree_eq : s.tree = opened.document.editorTree
  keeps : opened.Keeps s.controller
  issued_eq : s.issued = []

/-- A file that has been loaded into the editor is untouched. -/
theorem untouched_atOpening {s : Session} {f : OpenFile}
    (htree : s.editor.tree = f.controller.document.editorTree) :
    (atOpening s f).Untouched f.controller :=
  ⟨htree, ⟨rfl, rfl, rfl, rfl⟩, rfl⟩

/-- Whatever a controller does about an untouched tree leaves everything as it was. -/
theorem Untouched.carry {opened : Controller} {s : Desk} {r : Controller × Option Notice}
    (h : s.Untouched opened) (htext : opened.text = opened.document.write)
    (hr : s.controller.Outcome s.tree s.now r) : (s.carry r).Untouched opened := by
  have hwrite : (s.controller.found s.tree).write = s.controller.text := by
    rw [h.tree_eq, ← h.keeps.document, Controller.write_found_editorTree, h.keeps.document,
      h.keeps.text, htext]
  obtain ⟨hnone, hkeeps⟩ := hr.keeps hwrite
  refine ⟨h.tree_eq, ?_, ?_⟩
  · exact ⟨hkeeps.document.trans h.keeps.document, hkeeps.text.trans h.keeps.text,
      hkeeps.version.trans h.keeps.version, hkeeps.lastSyncedAt.trans h.keeps.lastSyncedAt⟩
  · show s.issued ++ r.2.toList.map (s.now, ·) = []
    rw [hnone, h.issued_eq]
    rfl

/-- Every step but an edit leaves everything as it was. -/
theorem Untouched.step {opened : Controller} {s s' : Desk} {l : Label} (hstep : s.Step l s')
    (hl : l.keepsTree = true) (htext : opened.text = opened.document.write)
    (h : s.Untouched opened) : s'.Untouched opened := by
  cases l with
  | edit tree => exact nomatch hl
  | wait stop =>
    obtain ⟨-, rfl⟩ := hstep
    exact ⟨h.tree_eq, h.keeps, h.issued_eq⟩
  | report =>
    obtain rfl := hstep
    exact h.carry htext (Controller.outcome_change _ _ _)
  | fire =>
    obtain rfl := hstep
    exact h.carry htext (Controller.outcome_fire _ _ _)
  | flush =>
    obtain rfl := hstep
    exact h.carry htext (Controller.outcome_flush _ _ _)
  | stop =>
    obtain rfl := hstep
    exact ⟨h.tree_eq, ⟨h.keeps.document, h.keeps.text, h.keeps.version, h.keeps.lastSyncedAt⟩,
      h.issued_eq⟩

/-- Every run without an edit leaves everything as it was. -/
theorem Untouched.run {opened : Controller} {s s' : Desk} {labels : List Label}
    (hrun : Run s labels s') (hl : ∀ l ∈ labels, l.keepsTree = true)
    (htext : opened.text = opened.document.write) (h : s.Untouched opened) :
    s'.Untouched opened := by
  induction hrun with
  | nil s => exact h
  | cons hstep _ ih =>
    refine ih (fun l hmem => hl l (List.mem_cons_of_mem _ hmem)) ?_
    exact h.step hstep (hl _ List.mem_cons_self) htext

end Desk

/-- Loading a document and extracting it back changes nothing but that ranges are dropped. So every
    text that is opened, in every dialect, stays as it was opened for as long as nobody edits it:
    edits may be reported, timers may fire, and the document may be flushed and saved. -/
theorem Session.untouched_of_run :
    (∀ (d : Document) (ids : IdCounter),
      (d.editorTree.extract ids).1 = d.areas.map Area.clearRanges) ∧
    ∀ (s : Session) (path uri source : Text) (dialect : Dialect),
      s.dialectFor? path = some dialect → Uri.ofPath? path = some uri →
      ∃ (s' : Session) (f : OpenFile), Session.openFile path source s = (.ok (), s') ∧
        s'.current = some f ∧
        f.controller.document = (dialect.parseDocument uri source {}).1.updateBounds.1 ∧
        s'.editor.tree = f.controller.document.editorTree ∧
        ∀ (labels : List Desk.Label) (d : Desk), (∀ l ∈ labels, l.keepsTree = true) →
          (Desk.atOpening s' f).Run labels d →
          d.issued = [] ∧ d.controller.version = f.controller.version ∧
            d.controller.text = f.controller.text ∧
            d.controller.document = f.controller.document := by
  refine ⟨Document.extract_editorTree, ?_⟩
  intro s path uri source dialect hdialect huri
  obtain ⟨document, hbounds⟩ : ∃ document,
      (dialect.parseDocument uri source {}).1.updateBounds = (document, none) :=
    ⟨_, Document.updateBounds_eq _⟩
  have hopen := Session.openFile_eq hdialect huri hbounds
  have htree := s.tree_announced path dialect document
  refine ⟨_, _, hopen, rfl, congrArg Prod.fst hbounds.symm, htree, ?_⟩
  intro labels d hl hrun
  have h := Desk.Untouched.run hrun hl rfl (Desk.untouched_atOpening htree)
  exact ⟨h.issued_eq, h.keeps.version, h.keeps.text, h.keeps.document⟩

/-- A file of Coq is opened, and edits are reported that nobody has made. The file is saved while
    the first of them waits, a timer fires for the second, and the third comes after a pause. -/
theorem Session.untouched_of_opened_coq :
    ∃ s' f d, Session.openFile ['/', 'a', '.', 'v'] ['Q', 'e', 'd', '.'] swift = (.ok (), s') ∧
      s'.current = some f ∧
      (Desk.atOpening s' f).Run
        [.report, .flush, .wait 100, .report, .wait 5020, .fire, .report] d ∧
      d.now = 5020 ∧ d.tree = s'.editor.tree ∧
      d.controller.debouncer = ⟨500, 5000, .idle, 5020⟩ ∧ d.controller.timer = none ∧
      d.issued = [] ∧ d.controller.version = f.controller.version ∧
        d.controller.text = f.controller.text ∧
        d.controller.document = f.controller.document := by
  obtain ⟨s', f, hopen, hcurrent, -, -, huntouched⟩ := Session.untouched_of_run.2
    swift ['/', 'a', '.', 'v'] _ ['Q', 'e', 'd', '.'] .coq rfl rfl
  -- the run is followed from the session that is known to be opened
  have hopened : Session.openFile ['/', 'a', '.', 'v'] ['Q', 'e', 'd', '.'] swift = _ :=
    Session.openFile_eq rfl rfl (Document.updateBounds_eq _)
  obtain rfl := (Prod.mk.inj (hopen.symm.trans hopened)).2
  obtain rfl := Option.some.inj hcurrent
  exact ⟨_, _, _, hopen, hcurrent, Desk.run_after (by decide +kernel), by decide +kernel, rfl,
    by decide +kernel, by decide +kernel,
    huntouched _ _ (by decide) (Desk.run_after (by decide +kernel))⟩

end Worksheet
