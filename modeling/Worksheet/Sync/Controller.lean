import Worksheet.Editor.Node
import Worksheet.Sync.Debouncer

/-! # Synchronisation of one document

  A controller owns the document of one file and keeps the server's copy of its text up to date.
  The editor is asked for its tree only when a synchronisation is due. If the text written from the
  tree is the text that the server has, nothing changes and nothing is sent; otherwise the tree is
  adopted as the document, with its ranges, and the server is notified of a new version with the
  whole text.

  The controller's timer is a deadline. Whoever runs the controller calls `fire` once that time has
  come, unless the deadline is gone by then.
-/

namespace Worksheet

/-- The notice to the server that a document has a new text. -/
structure Notice where
  version : Nat
  text : Text
deriving DecidableEq

structure Controller where
  uri : Text
  debouncer : Debouncer
  document : Document
  /-- The text the server has. -/
  text : Text
  /-- The version of that text. -/
  version : Nat
  ids : IdCounter
  /-- When the armed timer fires. -/
  timer : Option Time := none
  openedAt : Time
  /-- When the server was last notified. -/
  lastSyncedAt : Option Time := none

namespace Controller

/-- Version under which a document is opened. -/
def initialVersion : Nat := 1

/-- The controller of a document that the server has been told of at a time. -/
def start (document : Document) (ids : IdCounter) (settings : SyncSettings) (now : Time) :
    Controller where
  uri := document.uri
  debouncer := .start settings now
  document := document
  text := document.write
  version := initialVersion
  ids := ids
  openedAt := now

/-- When the server last received a text; the opening counts. -/
def lastSync (c : Controller) : Time := c.lastSyncedAt.getD c.openedAt

def isPending (c : Controller) : Bool := c.debouncer.isPending

def cancelTimer (c : Controller) : Controller := { c with timer := none }

/-! ### Synchronising -/

/-- Brings the document and the server in line with the editor's tree. -/
def sync (c : Controller) (snapshot : EditorNode) (now : Time) : Controller × Option Notice :=
  let (found, ids) := snapshot.extractDocument c.uri c.document.grammar c.ids
  let text := found.write
  let c := { c with ids }
  if text = c.text then (c, none)
  else
    let version := c.version + 1
    ({ c with document := found.updateBounds.1, text, version, lastSyncedAt := some now },
      some ⟨version, text⟩)

/-- An edit was made in the editor. -/
def change (c : Controller) (snapshot : EditorNode) (now : Time) : Controller × Option Notice :=
  let (debouncer, directive) := c.debouncer.change now c.lastSync
  let c := { c with debouncer }
  match directive with
  | .syncNow => c.cancelTimer.sync snapshot now
  | .schedule deadline => ({ c with timer := some deadline }, none)
  | .keep => (c, none)

/-- The timer fires. -/
def fire (c : Controller) (snapshot : EditorNode) (now : Time) : Controller × Option Notice :=
  match c.debouncer.timer now with
  | (debouncer, true) => { c with debouncer, timer := none }.sync snapshot now
  | (debouncer, false) => ({ c with debouncer }, none)

/-- Synchronises now if that is pending. -/
def flush (c : Controller) (snapshot : EditorNode) (now : Time) : Controller × Option Notice :=
  match c.debouncer.flush with
  | (debouncer, true) => { c with debouncer }.cancelTimer.sync snapshot now
  | (debouncer, false) => ({ c with debouncer }, none)

end Controller

end Worksheet
