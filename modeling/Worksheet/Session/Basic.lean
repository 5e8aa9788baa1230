import Worksheet.Reading
import Worksheet.Session.Editor
import Worksheet.Session.Server
import Worksheet.Uri.File

/-! # Sessions

  A session connects one editor with a language server. Opening a file reads its text, loads the
  document into the editor and announces it to the server; from then on a controller keeps the
  server up to date.

  Time passes only while something is waited for: the answer to a call, a document that is in use,
  or a given time. A timer that comes due while time passes fires at its deadline. Its notice to the
  server takes as long as any call, and until then the document is in use and everything else that
  concerns it has to wait. A controller whose file is no longer the current one still runs its
  timer.
-/

namespace Worksheet

/-! ### Errors -/

inductive SessionError where
  | unsupportedFileType (path : Text)
  | invalidPath (path : Text)
  | bounds (cause : BoundsError)
  | client (cause : ClientError)

/-- The text of an error where ranges cannot be found. -/
def SessionError.message : SessionError → String
  | unsupportedFileType path => "Unsupported file type: " ++ String.ofList path
  | invalidPath path => "Cannot build a file uri for " ++ String.ofList path
  | bounds cause => "Area ranges could not be mapped: " ++ cause.message
  | client cause => cause.message

/-! ### Files -/

/-- A document under a controller, and when it is free for use. -/
structure OpenFile where
  controller : Controller
  freeAt : Time

namespace OpenFile

/-- Lets time pass up to `stop`: a timer that is due by then fires at its deadline. -/
def elapse (f : OpenFile) (tree : EditorNode) (server : Server) (stop : Time) :
    OpenFile × Server :=
  match f.controller.timer with
  | none => (f, server)
  | some deadline =>
    if deadline ≤ stop then
      match f.controller.fire tree deadline with
      | (c, none) => (⟨c, f.freeAt⟩, server)
      | (c, some n) => (⟨c, deadline + server.callDuration⟩, server.notify deadline (.changed n))
    else (f, server)

/-- Lets time pass for several files. -/
def elapseAll (tree : EditorNode) (stop : Time) : List OpenFile → Server → List OpenFile × Server
  | [], server => ([], server)
  | f :: rest, server =>
    let (f, server) := f.elapse tree server stop
    let (rest, server) := elapseAll tree stop rest server
    (f :: rest, server)

end OpenFile

/-! ### Sessions -/

structure Session where
  settings : Settings
  server : Server
  editor : Editor := {}
  now : Time := 0
  /-- The file that was opened last. -/
  current : Option OpenFile := none
  /-- Files that were opened before it. -/
  earlier : List OpenFile := []

namespace Session

/-- A session with a server that takes so long over every call. -/
def start (settings : Settings) (delay : Duration) : Session where
  settings := settings
  server := { delay, timeout := settings.server.requestTimeout }

/-- Something done in a session. -/
abbrev Action := StateM Session

/-! ### Waiting -/

/-- Time passes up to `stop`. -/
def waitUntil (stop : Time) : Action Unit := modify fun s =>
  let (earlier, server) := OpenFile.elapseAll s.editor.tree stop s.earlier s.server
  match s.current with
  | none => { s with now := max s.now stop, server, earlier }
  | some f =>
    let (f, server) := f.elapse s.editor.tree server stop
    { s with now := max s.now stop, server, earlier, current := some f }

/-- So much time passes, if it is not too long to be waited for. -/
def sleep (d : Duration) : Action Unit := do waitUntil ((← get).now + min d maxWait)

/-- Waits for the current document. -/
def lock : Action Unit := do
  match (← get).current with
  | some f => waitUntil f.freeAt
  | none => return

/-- The controller of the current document, once that is free. -/
def controller? : Action (Option Controller) := do
  lock
  return (← get).current.map OpenFile.controller

/-! ### Calls -/

/-- Waits for a call; whether it ended before it was given up. -/
def await : Action Bool := do
  sleep (← get).server.callDuration
  return (← get).server.isInTime

/-- Sends a message and waits until it has arrived or is given up. -/
def send (m : Message) : Action Bool := do
  modify fun s => { s with server := s.server.call s.now m }
  await

/-- The answer to a request, unless it was given up. -/
def answer {α : Type} (method : Method) (inTime : Bool) (value : α) :
    Action (Except ClientError α) := do
  let s ← get
  return if inTime then .ok value else .error (.timeout method s.server.timeout)

/-- Introduces the client to the server; the name of the server. -/
def introduce : Action (Except ClientError Text) := do
  let inTime ← await
  if inTime then discard <| send .initialized
  answer .handshake inTime Server.name

def exit : Action Unit := discard <| send .exited

/-- Asks the server to shut down, and then to exit. -/
def shutdown : Action (Except ClientError Unit) := do
  let inTime ← send .shutDown
  if inTime then exit
  answer .shutdown inTime ()

/-- What the server says about a position. -/
def hover (p : Position) : Action (Except ClientError Text) := do
  let inTime ← send (.hovered p.wire)
  answer .hover inTime (Server.hoverText p.wire)

/-- Where the server finds what a position refers to. -/
def definition (uri : Text) (p : Position) : Action (Except ClientError (Text × Position)) := do
  let inTime ← await
  answer .definition inTime (uri, p.wire)

/-! ### The current document -/

/-- Runs a step of the current controller once the document is free, and sends its notice. -/
def control (step : Controller → EditorNode → Time → Controller × Option Notice) :
    Action Unit := do
  lock
  let s ← get
  match s.current with
  | none => return
  | some f =>
    let (c, notice) := step f.controller s.editor.tree s.now
    set { s with current := some { f with controller := c } }
    match notice with
    | none => return
    | some n => discard <| send (.changed n)

/-- An edit was made in the editor. -/
def change : Action Unit := control Controller.change

/-- Synchronises now if that is pending. -/
def flush : Action Unit := control Controller.flush

/-- Flushes; the text to be saved. -/
def save : Action (Option Text) := do
  flush
  return (← controller?).map Controller.text

/-- Flushes, stops the timer and tells the server that the document is closed. -/
def close : Action Unit := do
  flush
  control fun c _ _ => (c.cancelTimer, none)
  match (← get).current with
  | none => return
  | some f => discard <| send (.closed f.controller.uri)

def document? : Action (Option Document) := do
  return (← controller?).map Controller.document

/-- Shows reports of the server in the editor, if they are on the current document. -/
def showDiagnostics (uri : Text) (reports : List Diagnostic) : Action Unit := do
  match (← get).current with
  | none => return
  | some f =>
    if uri = f.controller.uri then
      match ← document? with
      | none => return
      | some d =>
        modify fun s => { s with editor := s.editor.display (d.mapDiagnostics reports) }

/-- The uri of the current document and the position of a byte offset into an area. -/
def positionOf? (area : AreaId) (offset : Nat) : Action (Option (Text × Position)) := do
  let c ← controller?
  return c.bind fun c => (c.document.positionOf? area offset).map fun p => (c.uri, p.wire)

/-- What the server says about a byte offset into an area. -/
def hoverAt (area : AreaId) (offset : Nat) : Action (Except ClientError (Option Text)) := do
  match ← positionOf? area offset with
  | none => return .ok none
  | some (_, p) => return (← hover p).map some

/-- Where the server finds what a byte offset into an area refers to. -/
def definitionAt (area : AreaId) (offset : Nat) :
    Action (Except ClientError (Option (Text × Position))) := do
  match ← positionOf? area offset with
  | none => return .ok none
  | some (uri, p) => return (← definition uri p).map some

/-! ### Opening -/

/-- The dialect a file is read in. -/
def dialectFor? (s : Session) (path : Text) : Option Dialect :=
  Dialect.ofFileType? (.ofPath path) s.settings.output.preferPure

/-- Opens a file that holds `source`. Its controller becomes the current one. -/
def openFile (path source : Text) : Action (Except SessionError Unit) := do
  let s ← get
  match s.dialectFor? path, Uri.ofPath? path with
  | none, _ => return .error (.unsupportedFileType path)
  | some _, none => return .error (.invalidPath path)
  | some dialect, some uri =>
    let (parsed, ids) := dialect.parseDocument uri source {}
    match parsed.updateBounds with
    | (_, some e) => return .error (.bounds e)
    | (document, none) =>
      let named := s.settings.server.languageIds.ofFileType? (.ofPath path)
      modify fun s => { s with editor := s.editor.load document.editorTree }
      discard <| send (.opened {
        uri
        languageId := named.getD dialect.name.toList
        version := Controller.initialVersion
        text := document.write })
      modify fun s => { s with
        current := some ⟨.start document ids s.settings.sync s.now, s.now⟩
        earlier := s.earlier ++ s.current.toList }
      return .ok ()

end Session

end Worksheet
