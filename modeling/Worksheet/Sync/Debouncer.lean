import Worksheet.Settings.Basic

/-! # Debouncing

  Edits are held back while somebody types, but not for ever. The debouncer is told of every change
  and says what to do with the synchronisation that the change asks for:

  * after a pause in typing, synchronise now;
  * with nothing pending, arm a timer for the last synchronisation plus the greatest latency, or
    synchronise now if that time has passed;
  * with a timer armed, leave it alone.

  A deadline is never moved once it is set, so a timer that somebody types against still fires. A
  pause is longer than `typingPause` since the change before; the opening of the document counts as
  the first change.
-/

namespace Worksheet

inductive DebounceState where
  /-- Nothing is pending. -/
  | idle
  /-- One change waits for the deadline. -/
  | buffered (deadline : Time)
  /-- Further changes came while the timer was armed. -/
  | typing (deadline : Time)
deriving DecidableEq

/-- What the owner of the timer is to do about a change. -/
inductive Directive where
  /-- Cancel the timer and synchronise. -/
  | syncNow
  /-- Arm a timer. -/
  | schedule (deadline : Time)
  /-- Leave the armed timer alone. -/
  | keep
deriving DecidableEq

structure Debouncer where
  typingPause : Duration
  maxLatency : Duration
  state : DebounceState
  /-- When the last change was, or the opening. -/
  lastChange : Time
deriving DecidableEq

namespace Debouncer

/-- The debouncer of a document that is opened at a time. -/
def start (settings : SyncSettings) (openedAt : Time) : Debouncer :=
  ⟨settings.typingPause, settings.maxLatency, .idle, openedAt⟩

def isPending (d : Debouncer) : Bool := d.state ≠ .idle

/-- When the armed timer is to fire. -/
def deadline? (d : Debouncer) : Option Time :=
  match d.state with
  | .idle => none
  | .buffered t | .typing t => some t

/-- A change, where the server last received text at `lastSync`. -/
def change (d : Debouncer) (now lastSync : Time) : Debouncer × Directive :=
  let quiet := now - d.lastChange
  let d := { d with lastChange := now }
  if d.typingPause < quiet then ({ d with state := .idle }, .syncNow)
  else
    match d.state with
    | .idle =>
      let deadline := lastSync + d.maxLatency
      if deadline ≤ now then (d, .syncNow)
      else ({ d with state := .buffered deadline }, .schedule deadline)
    | .buffered deadline => ({ d with state := .typing deadline }, .keep)
    | .typing _ => (d, .keep)

/-- A timer fires; whether a synchronisation is due. -/
def timer (d : Debouncer) (now : Time) : Debouncer × Bool :=
  match d.deadline? with
  | some deadline => if deadline ≤ now then ({ d with state := .idle }, true) else (d, false)
  | none => (d, false)

/-- Gives up waiting; whether a synchronisation was pending. -/
def flush (d : Debouncer) : Debouncer × Bool := ({ d with state := .idle }, d.isPending)

end Debouncer

end Worksheet
