import Worksheet.Session.Basic
import Worksheet.Proofs.Document.Ranges

/-! # Opening a file

  Opening a file announces its document to the server and then puts it under a controller. The two
  belong together: the announced text is the text the controller takes the server to have
  (`Session.openFile_spec`). In between the session waits for the call to end, and timers of other
  files may fire; that adds to the server's log and changes nothing in the editor.
-/

namespace Worksheet

/-! ### What reaches the server -/

namespace Server

/-- A call that ends in time is in the log. -/
theorem mem_log_call {s : Server} (now : Time) (m : Message) (h : s.isInTime = true) :
    (now + s.callDuration, m) ∈ (s.call now m).log := by
  simp only [call, h, if_true]
  exact List.mem_append_right _ List.mem_cons_self

/-- Nothing is taken out of the log by what timers send. -/
theorem mem_log_notify {s : Server} {e : Time × Message} (now : Time) (m : Message)
    (h : e ∈ s.log) : e ∈ (s.notify now m).log := by
  unfold notify
  split
  · exact List.mem_append_left _ h
  · exact h

end Server

namespace OpenFile

theorem mem_log_elapse {e : Time × Message} (f : OpenFile) (tree : EditorNode) {server : Server}
    (stop : Time) (h : e ∈ server.log) : e ∈ (f.elapse tree server stop).2.log := by
  unfold elapse
  split
  · exact h
  · split
    · split
      · exact h
      · exact Server.mem_log_notify _ _ h
    · exact h

theorem mem_log_elapseAll {e : Time × Message} (tree : EditorNode) (stop : Time)
    (files : List OpenFile) {server : Server} (h : e ∈ server.log) :
    e ∈ (elapseAll tree stop files server).2.log := by
  induction files generalizing server with
  | nil => exact h
  | cons f rest ih => exact ih (mem_log_elapse f tree stop h)

end OpenFile

namespace Session

/-! ### Waiting for a call -/

theorem editor_waitUntil (stop : Time) (s : Session) : (waitUntil stop s).2.editor = s.editor := by
  unfold waitUntil
  simp only [modify, modifyGet, MonadStateOf.modifyGet, StateT.modifyGet, pure]
  cases s.current <;> rfl

/-- Waiting takes nothing out of the server's log. -/
theorem mem_log_waitUntil {e : Time × Message} (stop : Time) {s : Session}
    (h : e ∈ s.server.log) : e ∈ (waitUntil stop s).2.server.log := by
  unfold waitUntil
  simp only [modify, modifyGet, MonadStateOf.modifyGet, StateT.modifyGet, pure]
  have hearlier := OpenFile.mem_log_elapseAll s.editor.tree stop s.earlier h
  cases s.current with
  | none => exact hearlier
  | some f => exact OpenFile.mem_log_elapse f s.editor.tree stop hearlier

/-- The session after a message has been sent and waited for. -/
theorem run_send (m : Message) (s : Session) :
    (send m s).2 =
      (waitUntil (s.now + min (s.server.call s.now m).callDuration maxWait)
        { s with server := s.server.call s.now m }).2 := rfl

/-! ### Opening -/

/-- How the document of a file is announced. -/
def announcement (s : Session) (path : Text) (dialect : Dialect) (document : Document) :
    OpenedDocument where
  uri := document.uri
  languageId := (s.settings.server.languageIds.ofFileType? (.ofPath path)).getD dialect.name.toList
  version := Controller.initialVersion
  text := document.write

/-- The session in which the document has been loaded and announced. -/
def announced (s : Session) (path : Text) (dialect : Dialect) (document : Document) : Session :=
  (send (.opened (s.announcement path dialect document))
    { s with editor := s.editor.load document.editorTree }).2

/-- The document is what the editor holds then. -/
theorem tree_announced (s : Session) (path : Text) (dialect : Dialect) (document : Document) :
    (s.announced path dialect document).editor.tree = document.editorTree := by
  unfold announced
  rw [run_send, editor_waitUntil]
  rfl

/-- A file for which there are a dialect and a uri is announced and put under a controller. -/
theorem openFile_eq {s : Session} {path source uri : Text} {dialect : Dialect} {document : Document}
    (hdialect : s.dialectFor? path = some dialect) (huri : Uri.ofPath? path = some uri)
    (hbounds : (dialect.parseDocument uri source {}).1.updateBounds = (document, none)) :
    openFile path source s =
      (.ok (), { s.announced path dialect document with
        current := some ⟨.start document (dialect.parseDocument uri source {}).2
          (s.announced path dialect document).settings.sync (s.announced path dialect document).now,
          (s.announced path dialect document).now⟩
        earlier := (s.announced path dialect document).earlier ++
          (s.announced path dialect document).current.toList }) := by
  have hdocument : document.uri = uri := by
    rw [Document.updateBounds_eq] at hbounds
    rw [← (Prod.mk.inj hbounds).1]
    rfl
  unfold openFile announced announcement
  simp only [bind, StateT.bind, get, getThe, MonadStateOf.get, StateT.get, pure, hdialect, huri]
  rw [hbounds, hdocument]
  rfl

/-- Opening a file that succeeds makes it the current one, under a controller at its start. What the
    server is told is the controller's text, and it is in the log unless the call was given up. -/
theorem openFile_spec {s s' : Session} {path source : Text}
    (h : openFile path source s = (.ok (), s')) :
    ∃ (dialect : Dialect) (uri : Text) (document : Document) (o : OpenedDocument),
      (dialect.parseDocument uri source {}).1.updateBounds = (document, none) ∧
      s'.current = some ⟨.start document (dialect.parseDocument uri source {}).2
        s'.settings.sync s'.now, s'.now⟩ ∧
      s'.editor.tree = document.editorTree ∧
      o.uri = document.uri ∧ o.version = Controller.initialVersion ∧ o.text = document.write ∧
      (s.server.isInTime = true → ∃ t, (t, Message.opened o) ∈ s'.server.log) := by
  cases hdialect : s.dialectFor? path with
  | none =>
    simp only [openFile, bind, StateT.bind, get, getThe, MonadStateOf.get, StateT.get, pure,
      hdialect] at h
    exact nomatch (Prod.mk.inj h).1
  | some dialect =>
    cases huri : Uri.ofPath? path with
    | none =>
      simp only [openFile, bind, StateT.bind, get, getThe, MonadStateOf.get, StateT.get, pure,
        hdialect, huri] at h
      exact nomatch (Prod.mk.inj h).1
    | some uri =>
      -- the third way to fail, ranges that cannot be found, does not exist
      obtain ⟨document, hbounds⟩ : ∃ document,
          (dialect.parseDocument uri source {}).1.updateBounds = (document, none) :=
        ⟨_, Document.updateBounds_eq _⟩
      rw [openFile_eq hdialect huri hbounds] at h
      obtain rfl := (Prod.mk.inj h).2
      refine ⟨dialect, uri, document, s.announcement path dialect document, hbounds, rfl,
        s.tree_announced path dialect document, rfl, rfl, rfl, ?_⟩
      intro hin
      refine ⟨s.now + s.server.callDuration, ?_⟩
      show _ ∈ (announced _ _ _ _).server.log
      unfold announced
      rw [run_send]
      exact mem_log_waitUntil _ (Server.mem_log_call _ _ hin)

end Session

end Worksheet
