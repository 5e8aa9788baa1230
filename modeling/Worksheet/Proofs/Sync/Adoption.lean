import Worksheet.Proofs.Sync.Bench

/-! # The document and the tree in the editor

  A synchronisation adopts the tree in the editor if it is written in a new way, and then the
  document has the very areas of the tree (`Bench.Follows.areas_eq`). A tree that is written as the
  text the server has is dropped, also where its areas are others than those of the document:
  several trees can be written in the same way. Whatever was done, the document is written as the
  tree is.
-/

namespace Worksheet

/-! ### What a controller does with the tree -/

/-- The controller's text stays that of its document. -/
theorem Controller.Outcome.text_eq_write {c : Controller} {tree : EditorNode} {now : Time}
    {r : Controller × Option Notice} (h : c.Outcome tree now r) (htext : c.text = c.document.write) :
    r.1.text = r.1.document.write := by
  rcases h with ⟨-, hkeeps⟩ | ⟨n, -, hadopts⟩
  · rw [hkeeps.text, hkeeps.document]
    exact htext
  · rw [hadopts.text, hadopts.document, Document.write_updateBounds]

/-- The areas of a document that is found in a tree are those of the tree, and they get their
    ranges. -/
theorem Controller.clearRanges_updateBounds_found (c : Controller) (tree : EditorNode) :
    (c.found tree).updateBounds.1.areas.map Area.clearRanges = (tree.extract c.ids).1 := by
  rw [Document.updateBounds_eq]
  show (Area.place (tree.extract c.ids).1 _).map Area.clearRanges = _
  rw [Area.clearRanges_place, EditorNode.clearRanges_extract]

/-- A tree that is written in a new way is adopted, and a tree that is written as the text the
    server has is dropped. -/
theorem Controller.document_sync (c : Controller) (tree : EditorNode) (now : Time) :
    (c.sync tree now).1.document =
      if tree.writeIn c.document.grammar = c.text then c.document
      else (c.found tree).updateBounds.1 := by
  rw [← c.write_found tree]
  split
  · next h => exact (sync_of_write_eq now h).2.document
  · next h =>
    obtain ⟨n, -, hadopts⟩ := sync_of_write_ne now h
    exact hadopts.document

/-- The counter and the timer play no part in this. -/
theorem Cause.document_run {k : Cause} {c : Controller} {now : Time} (tree : EditorNode)
    (h : k.syncs c now = true) :
    (k.run c tree now).1.document =
      if tree.writeIn c.document.grammar = c.text then c.document
      else (c.found tree).updateBounds.1 := by
  rw [run_eq, if_pos h, Controller.document_sync]
  rfl

namespace Bench

/-- The controller synchronises in a step. -/
def Syncs (s : Bench) (l : Label) : Prop :=
  ∃ k, l.cause? = some k ∧ k.syncs s.controller (s.prepare l).now = true

/-! ### The text and the document -/

theorem text_eq_write_of_step {s s' : Bench} {l : Label} (hstep : s.Step l s')
    (h : s.controller.text = s.controller.document.write) :
    s'.controller.text = s'.controller.document.write := by
  rw [← controller_prepare s l] at h
  rcases hstep.eq_or with ⟨-, rfl⟩ | ⟨k, -, rfl⟩
  · exact h
  · exact (k.outcome _ _ _).text_eq_write h

/-- In every run the controller's text is that of its document. -/
theorem text_eq_write {document : Document} {ids : IdCounter} {settings : SyncSettings} {now : Time}
    {tree : EditorNode} {labels : List Label} {s : Bench}
    (hrun : (opening document ids settings now tree).Run labels s) :
    s.controller.text = s.controller.document.write :=
  hrun.preserves (P := fun s => s.controller.text = s.controller.document.write)
    (fun _ _ _ _ hstep h => text_eq_write_of_step hstep h) rfl

/-! ### The document after a synchronisation -/

/-- How the document follows the tree in a step that synchronises. -/
structure Follows (s s' : Bench) : Prop where
  /-- The document is written as the tree is. -/
  write_eq : ∀ ids, s'.controller.document.write =
    Area.write s.controller.document.grammar (s'.tree.extract ids).1
  /-- If that is a new text, the document has the areas of the tree: the same identifiers, kinds,
      contents and headings, in the same order and in the same containers. -/
  areas_eq : ∀ ids, Area.write s.controller.document.grammar (s'.tree.extract ids).1 ≠
      s.controller.document.write →
    s'.controller.document.areas.map Area.clearRanges = (s'.tree.extract ids).1
  /-- If it is the old text, the document stays as it was. -/
  document_eq : ∀ ids, Area.write s.controller.document.grammar (s'.tree.extract ids).1 =
      s.controller.document.write →
    s'.controller.document = s.controller.document

/-- In every run the document follows the tree in each step that synchronises, where the areas in
    the tree carry identifiers. -/
theorem follows_of_run {document : Document} {ids : IdCounter} {settings : SyncSettings}
    {now : Time} {tree : EditorNode} {labels : List Label} {s s' : Bench} {l : Label}
    (hrun : (opening document ids settings now tree).Run labels s) (hstep : s.Step l s')
    (hsyncs : s.Syncs l) (hnamed : s'.tree.Named) : s.Follows s' := by
  have htext := text_eq_write hrun
  have htext' := text_eq_write_of_step hstep htext
  obtain ⟨k, hcause, hsyncs⟩ := hsyncs
  -- the controller acts, on the bench as the step finds it
  obtain rfl : s' = (s.prepare l).act k := by
    rcases hstep.eq_or with ⟨hnone, -⟩ | ⟨other, hother, heq⟩
    · exact nomatch hnone.symm.trans hcause
    · rw [heq, Option.some.inj (hcause.symm.trans hother)]
  rw [← controller_prepare s l] at hsyncs
  have hwritten : ∀ ids, Area.write s.controller.document.grammar
      (((s.prepare l).act k).tree.extract ids).1 = (s.prepare l).written := by
    intro ids
    rw [written, controller_prepare]
    exact EditorNode.write_extract _ _ ids
  have hdocument : ((s.prepare l).act k).controller.document =
      if (s.prepare l).written = s.controller.document.write then s.controller.document
      else ((s.prepare l).controller.found (s.prepare l).tree).updateBounds.1 := by
    rw [← htext, ← controller_prepare s l]
    exact Cause.document_run (s.prepare l).tree hsyncs
  constructor
  case write_eq =>
    intro ids
    rw [hwritten, ← htext', text_act, if_pos hsyncs]
    rfl
  case areas_eq =>
    intro ids hne
    rw [hwritten] at hne
    -- the areas carry identifiers, so it does not matter which counter the controller had
    rw [hdocument, if_neg hne, Controller.clearRanges_updateBounds_found]
    exact hnamed.extract_eq _ ids
  case document_eq =>
    intro ids heq
    rw [hwritten] at heq
    rw [hdocument, if_pos heq]

/-- A document of one cell of code. -/
def oneCell (content : Text) : Document where
  uri := ['u']
  areas := [.leaf ⟨.zero, .code, content, none⟩]
  grammar := .coq

/-- A document of two cells of code. -/
def twoCells (first second : Text) : Document where
  uri := ['u']
  areas := [.leaf ⟨.zero, .code, first, none⟩, .leaf ⟨⟨1, by decide⟩, .code, second, none⟩]
  grammar := .coq

/-- Somebody splits a cell and types into the second part. -/
theorem follows_of_split_and_typed :
    ∃ s s', (opening (oneCell ['a', 'b']) {} ⟨250, 1000⟩ 0 (oneCell ['a', 'b']).editorTree).Run
        [.wait 5000] s ∧
      s.Step (.change (twoCells ['a'] ['c']).editorTree) s' ∧ s.Follows s' ∧
      s'.controller.document.areas.map Area.clearRanges = (twoCells ['a'] ['c']).areas := by
  have hrun : (opening (oneCell ['a', 'b']) {} ⟨250, 1000⟩ 0
      (oneCell ['a', 'b']).editorTree).Run [.wait 5000] _ :=
    run_after (by decide +kernel)
  have hfollows := follows_of_run (l := .change (twoCells ['a'] ['c']).editorTree) hrun
    ⟨trivial, rfl⟩ ⟨.change, rfl, by decide +kernel⟩ (twoCells ['a'] ['c']).named_editorTree
  exact ⟨_, _, hrun, ⟨trivial, rfl⟩, hfollows, hfollows.areas_eq {} (by decide +kernel)⟩

/-- Somebody splits a cell in a grammar that does not tell one cell from two. The document keeps the
    one cell. -/
theorem document_behind_split_cell :
    ∃ s s', (opening (oneCell ['a', 'b']) {} ⟨250, 1000⟩ 0 (oneCell ['a', 'b']).editorTree).Run
        [.wait 5000] s ∧
      s.Step (.change (twoCells ['a'] ['b']).editorTree) s' ∧
      s.Syncs (.change (twoCells ['a'] ['b']).editorTree) ∧
      (twoCells ['a'] ['b']).editorTree.Named ∧
      ((twoCells ['a'] ['b']).entries.map Entry.id).Nodup ∧
      s'.controller.document.areas = (oneCell ['a', 'b']).areas ∧
      (s'.tree.extract {}).1 = (twoCells ['a'] ['b']).areas ∧
      s'.controller.document.areas.map Area.clearRanges ≠ (s'.tree.extract {}).1 := by
  have hrun : (opening (oneCell ['a', 'b']) {} ⟨250, 1000⟩ 0
      (oneCell ['a', 'b']).editorTree).Run [.wait 5000] _ :=
    run_after (by decide +kernel)
  exact ⟨_, _, hrun, ⟨trivial, rfl⟩, ⟨.change, rfl, by decide +kernel⟩,
    (twoCells ['a'] ['b']).named_editorTree, by decide +kernel, by decide +kernel,
    by decide +kernel, by decide +kernel⟩

end Bench

end Worksheet
