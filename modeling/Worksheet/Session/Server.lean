import Worksheet.Sync.Controller
import Worksheet.Sync.Diagnostic

/-! # The language server

  The server here answers every call in the same way and after the same delay, and keeps a log of
  what reached it. A call is given up after a timeout: what the call carried then never reaches the
  server. Some requests the server does not know, and it says at once that it has nothing to answer
  them with.

  Calls are made by the session, which waits for them, and by timers. When two arrive at the same
  time the server hears the session first.
-/

namespace Worksheet

/-! ### Requests -/

/-- What the server can be asked. -/
inductive Method where
  | handshake
  | shutdown
  | hover
  | definition
  | typeDefinition
  | references
  | signatureHelp
  | completion
  | declaration
deriving DecidableEq

/-- The name of a request on the wire. -/
def Method.name : Method → String
  | handshake => "initialize"
  | shutdown => "shutdown"
  | hover => "textDocument/hover"
  | definition => "textDocument/definition"
  | typeDefinition => "textDocument/typeDefinition"
  | references => "textDocument/references"
  | signatureHelp => "textDocument/signatureHelp"
  | completion => "textDocument/completion"
  | declaration => "textDocument/declaration"

/-- Why a request has no answer. -/
inductive ClientError where
  | timeout (method : Method) (after : Duration)
  | failed (method : Method) (message : String)
deriving DecidableEq

def ClientError.message : ClientError → String
  | timeout method after => method.name ++ " timed out after " ++ String.ofList after.display
  | failed method message => method.name ++ " failed: " ++ message

/-! ### Messages -/

/-- A document as it is announced to the server. -/
structure OpenedDocument where
  uri : Text
  languageId : Text
  version : Nat
  text : Text
deriving DecidableEq

/-- What the server takes note of. -/
inductive Message where
  | initialized
  | shutDown
  | exited
  | opened (document : OpenedDocument)
  | changed (notice : Notice)
  | closed (uri : Text)
  | hovered (position : Position)
deriving DecidableEq

/-! ### The server -/

/-- Nothing is waited for longer than thirty years of 365 days. -/
def maxWait : Duration := 30 * 365 * 24 * 60 * 60 * 1000

structure Server where
  /-- How long the server takes over every call. -/
  delay : Duration
  /-- When a call is given up. -/
  timeout : Duration
  /-- What reaches the server and when, in that order. -/
  log : List (Time × Message) := []

namespace Server

/-- The name the server gives itself. -/
def name : Text := "recording".toList

/-- Whether calls end before they are given up. -/
def isInTime (s : Server) : Bool := min s.delay maxWait ≤ s.timeout

/-- How long a call takes, whether it ends or is given up. -/
def callDuration (s : Server) : Duration := min (min s.delay s.timeout) maxWait

/-- A timer sends a message; it reaches the server at the end of the call, if it does. -/
def notify (s : Server) (now : Time) (m : Message) : Server :=
  if s.isInTime then { s with log := s.log ++ [(now + s.callDuration, m)] } else s

/-- The session sends a message. It precedes those that are yet to arrive at the same time. -/
def call (s : Server) (now : Time) (m : Message) : Server :=
  let arrival := now + s.callDuration
  let (before, after) := s.log.span fun (t, _) => t ≤ now || t < arrival
  if s.isInTime then { s with log := before ++ (arrival, m) :: after } else s

/-- What has reached the server by a time. -/
def received (s : Server) (now : Time) : List Message :=
  (s.log.filter fun (arrival, _) => arrival ≤ now).map (·.2)

/-- The changes among messages. -/
def notices (log : List Message) : List Notice :=
  log.filterMap fun
    | .changed n => some n
    | _ => none

/-- The documents that messages announce. -/
def openings (log : List Message) : List OpenedDocument :=
  log.filterMap fun
    | .opened d => some d
    | _ => none

/-- The uris of documents that are closed by messages. -/
def closings (log : List Message) : List Text :=
  log.filterMap fun
    | .closed uri => some uri
    | _ => none

/-- The positions that messages ask about. -/
def hovers (log : List Message) : List Position :=
  log.filterMap fun
    | .hovered p => some p
    | _ => none

/-- The answer to a request about a position. -/
def hoverText (p : Position) : Text := "hover at ".toList ++ p.display

end Server

end Worksheet
