import Worksheet.Proofs.Editor.Extraction
import Worksheet.Proofs.Sync.Announced

/-! # A file at work, with its timers

  A desk lets a timer fire at any time. A bench also keeps account of the timers: which of them run,
  when each is due, and which one the controller can still cancel. On it only a timer that runs
  can fire, and not before it is due. A timer that is due has to wait for the document before it
  can do anything, and who cancels it holds the document, so a timer that was cancelled does not
  fire any more. A bench remembers what made the controller act, and when.

  - `Cause.Effect` says all that the controller can do about an edit, a timer or a flush: whether it
    synchronises, what becomes of the debouncer, and what happens to the timers. Every invariant
    of a bench is derived from it.
  - `Bench.Run` is any sequence of things that happen at a bench, with times that do not go back.
-/

namespace Worksheet

/-! ### Timers of a debouncer -/

namespace Debouncer

theorem timer_of_due {d : Debouncer} {now due : Time} (h : d.deadline? = some due)
    (hdue : due ≤ now) : d.timer now = ({ d with state := .idle }, true) := by
  unfold timer
  rw [h]
  exact if_pos hdue

theorem timer_of_early {d : Debouncer} {now : Time} (h : ∀ due ∈ d.deadline?, now < due) :
    d.timer now = (d, false) := by
  unfold timer
  cases hdeadline : d.deadline? with
  | none => rfl
  | some due => exact if_neg (Nat.not_le_of_lt (h due hdeadline))

end Debouncer

/-! ### What makes a controller act -/

/-- What makes a controller act. -/
inductive Cause where
  /-- An edit is reported. -/
  | change
  /-- A timer fires. -/
  | fire
  /-- A flush; saving and closing begin with one. -/
  | flush
deriving DecidableEq

/-- What a controller does with the timers. -/
inductive TimerOrder where
  /-- Cancel the timer that is held. -/
  | cancel
  /-- Cancel the timer that is held and start another one. -/
  | restart (due : Time)
  /-- Let go of the timer that is held. -/
  | release
  /-- Leave the timers alone. -/
  | leave
deriving DecidableEq

/-- The time a controller has noted for its timer after an order. -/
def TimerOrder.noted (order : TimerOrder) (timer : Option Time) : Option Time :=
  match order with
  | cancel | release => none
  | restart due => some due
  | leave => timer

namespace Cause

/-- What the controller does. -/
def run : Cause → Controller → EditorNode → Time → Controller × Option Notice
  | change => Controller.change
  | fire => Controller.fire
  | flush => Controller.flush

/-- Whether the controller synchronises. -/
def syncs (k : Cause) (c : Controller) (now : Time) : Bool :=
  match k with
  | change => (c.debouncer.change now c.lastSync).2 = .syncNow
  | fire => (c.debouncer.timer now).2
  | flush => c.debouncer.flush.2

/-- What becomes of the debouncer. -/
def debounce (k : Cause) (c : Controller) (now : Time) : Debouncer :=
  match k with
  | change => (c.debouncer.change now c.lastSync).1
  | fire => (c.debouncer.timer now).1
  | flush => c.debouncer.flush.1

/-- What happens to the timers. The controller itself remembers only when its timer is due, and that
    agrees with its orders (`timer_run`). -/
def order (k : Cause) (c : Controller) (now : Time) : TimerOrder :=
  match k with
  | change =>
    match (c.debouncer.change now c.lastSync).2 with
    | .syncNow => .cancel
    | .schedule due => .restart due
    | .keep => .leave
  | fire => if (c.debouncer.timer now).2 then .release else .leave
  | flush => if c.debouncer.flush.2 then .cancel else .leave

/-- The controller tells the debouncer and gives its order to the timers, and then it synchronises
    or does nothing more. -/
theorem run_eq (k : Cause) (c : Controller) (tree : EditorNode) (now : Time) :
    k.run c tree now =
      if k.syncs c now then
        { c with debouncer := k.debounce c now, timer := none }.sync tree now
      else
        ({ c with debouncer := k.debounce c now, timer := (k.order c now).noted c.timer },
          none) := by
  -- every cause asks the debouncer first, and what is left to do depends on the answer only
  cases k with
  | change =>
    show c.change tree now = _
    unfold Controller.change syncs debounce order
    rcases c.debouncer.change now c.lastSync with ⟨debouncer, directive⟩
    cases directive <;> rfl
  | fire =>
    show c.fire tree now = _
    unfold Controller.fire syncs debounce order
    rcases c.debouncer.timer now with ⟨debouncer, due⟩
    cases due <;> rfl
  | flush =>
    show c.flush tree now = _
    unfold Controller.flush syncs debounce order
    rcases c.debouncer.flush with ⟨debouncer, pending⟩
    cases pending <;> rfl

/-- All that a controller can do. -/
inductive Effect (c : Controller) (now : Time) : Cause → Bool → Debouncer → TimerOrder → Prop where
  /-- A change after a pause is synchronised at once. -/
  | pause (h : c.debouncer.lastChange + c.debouncer.typingPause < now) :
      Effect c now change true { c.debouncer with state := .idle, lastChange := now } .cancel
  /-- A change with nothing pending and the latency used up is synchronised at once. -/
  | late (hidle : c.debouncer.deadline? = none)
      (h : c.lastSync + c.debouncer.maxLatency ≤ now) :
      Effect c now change true { c.debouncer with state := .idle, lastChange := now } .cancel
  /-- Any other change with nothing pending starts a timer. -/
  | arm (hidle : c.debouncer.deadline? = none)
      (h : now < c.lastSync + c.debouncer.maxLatency) :
      Effect c now change false
        { c.debouncer with
          state := .buffered (c.lastSync + c.debouncer.maxLatency), lastChange := now }
        (.restart (c.lastSync + c.debouncer.maxLatency))
  /-- Any other change waits for the timer that runs. -/
  | keep (due : Time) (h : c.debouncer.deadline? = some due) :
      Effect c now change false { c.debouncer with state := .typing due, lastChange := now } .leave
  /-- A timer fires when the deadline has come. -/
  | due (due : Time) (h : c.debouncer.deadline? = some due) (hdue : due ≤ now) :
      Effect c now fire true { c.debouncer with state := .idle } .release
  /-- A timer fires before the deadline, or with nothing pending. -/
  | early (h : ∀ due ∈ c.debouncer.deadline?, now < due) :
      Effect c now fire false c.debouncer .leave
  /-- A flush ends the waiting. -/
  | pending (due : Time) (h : c.debouncer.deadline? = some due) :
      Effect c now flush true { c.debouncer with state := .idle } .cancel
  /-- A flush finds nothing pending. -/
  | idle (h : c.debouncer.deadline? = none) : Effect c now flush false c.debouncer .leave

theorem effect_change (c : Controller) (now : Time) :
    Effect c now change (change.syncs c now) (change.debounce c now) (change.order c now) := by
  obtain ⟨uri, ⟨pause, latency, state, lastChange⟩, document, text, version, ids, timer, openedAt,
    lastSyncedAt⟩ := c
  unfold syncs debounce order
  simp only [Debouncer.change]
  -- a pause comes before everything else; without one the state decides
  by_cases hpause : pause < now - lastChange
  · rw [if_pos hpause]
    exact .pause (Nat.add_lt_of_lt_sub' hpause)
  · rw [if_neg hpause]
    cases state with
    | idle =>
      simp only
      split
      · next hlate => exact .late rfl hlate
      · next hearly => exact .arm rfl (Nat.lt_of_not_le hearly)
    | buffered due => exact .keep due rfl
    | typing due => exact .keep due rfl

theorem effect_fire (c : Controller) (now : Time) :
    Effect c now fire (fire.syncs c now) (fire.debounce c now) (fire.order c now) := by
  unfold syncs debounce order
  by_cases hdue : ∃ due ∈ c.debouncer.deadline?, due ≤ now
  · obtain ⟨due, hdeadline, hdue⟩ := hdue
    simp only [Debouncer.timer_of_due hdeadline hdue, if_true]
    exact .due due hdeadline hdue
  · have hearly : ∀ due ∈ c.debouncer.deadline?, now < due := fun due hdeadline =>
      Nat.lt_of_not_le fun h => hdue ⟨due, hdeadline, h⟩
    simp only [Debouncer.timer_of_early hearly, Bool.false_eq_true, if_false]
    exact .early hearly

theorem effect_flush (c : Controller) (now : Time) :
    Effect c now flush (flush.syncs c now) (flush.debounce c now) (flush.order c now) := by
  obtain ⟨uri, ⟨pause, latency, state, lastChange⟩, document, text, version, ids, timer, openedAt,
    lastSyncedAt⟩ := c
  cases state with
  | idle => exact .idle rfl
  | buffered due => exact .pending due rfl
  | typing due => exact .pending due rfl

theorem effect (k : Cause) (c : Controller) (now : Time) :
    Effect c now k (k.syncs c now) (k.debounce c now) (k.order c now) := by
  cases k with
  | change => exact effect_change c now
  | fire => exact effect_fire c now
  | flush => exact effect_flush c now

theorem outcome (k : Cause) (c : Controller) (tree : EditorNode) (now : Time) :
    c.Outcome tree now (k.run c tree now) := by
  cases k with
  | change => exact c.outcome_change tree now
  | fire => exact c.outcome_fire tree now
  | flush => exact c.outcome_flush tree now

end Cause

/-! ### What a synchronisation does -/

namespace Controller

variable (c : Controller) (tree : EditorNode) (now : Time)

@[simp] theorem debouncer_sync : (c.sync tree now).1.debouncer = c.debouncer := by
  simp only [sync]
  split <;> rfl

@[simp] theorem timer_sync : (c.sync tree now).1.timer = c.timer := by
  simp only [sync]
  split <;> rfl

@[simp] theorem openedAt_sync : (c.sync tree now).1.openedAt = c.openedAt := by
  simp only [sync]
  split <;> rfl

/-- The counter plays no part in how the document that is found is written. -/
theorem write_found : (c.found tree).write = tree.writeIn c.document.grammar :=
  tree.write_extract c.document.grammar c.ids

/-- Whether or not the text is new, the controller has the text of the tree afterwards. -/
theorem text_sync : (c.sync tree now).1.text = tree.writeIn c.document.grammar := by
  rw [← c.write_found tree]
  by_cases h : (c.found tree).write = c.text
  · have hkeeps := (sync_of_write_eq now h).2
    rw [hkeeps.text, h]
  · obtain ⟨n, -, hadopts⟩ := sync_of_write_ne now h
    exact hadopts.text

end Controller

theorem Document.grammar_updateBounds (d : Document) : d.updateBounds.1.grammar = d.grammar := by
  rw [Document.updateBounds_eq]

/-- Nothing that a controller does changes the grammar. -/
theorem Controller.Outcome.grammar {c : Controller} {tree : EditorNode} {now : Time}
    {r : Controller × Option Notice} (h : c.Outcome tree now r) :
    r.1.document.grammar = c.document.grammar := by
  rcases h with ⟨-, hkeeps⟩ | ⟨n, -, hadopts⟩
  · rw [hkeeps.document]
  · rw [hadopts.document, Document.grammar_updateBounds]
    rfl

namespace Cause

variable (k : Cause) (c : Controller) (tree : EditorNode) (now : Time)

theorem debouncer_run : (k.run c tree now).1.debouncer = k.debounce c now := by
  rw [run_eq]
  split
  · rw [Controller.debouncer_sync]
  · rfl

theorem openedAt_run : (k.run c tree now).1.openedAt = c.openedAt := by
  rw [run_eq]
  split
  · rw [Controller.openedAt_sync]
  · rfl

/-- Whoever synchronises cancels the timer or lets go of it. -/
theorem Effect.noted_eq_none {k : Cause} {c : Controller} {now : Time} {debouncer : Debouncer}
    {order : TimerOrder} (h : Effect c now k true debouncer order) (timer : Option Time) :
    order.noted timer = none := by
  cases h <;> rfl

/-- The controller notes what it has ordered. -/
theorem timer_run : (k.run c tree now).1.timer = (k.order c now).noted c.timer := by
  rw [run_eq]
  split
  · next hsyncs =>
    have heffect := k.effect c now
    rw [hsyncs] at heffect
    rw [Controller.timer_sync, heffect.noted_eq_none]
  · rfl

/-- A synchronisation brings the text of the tree; anything else leaves the text alone. -/
theorem text_run : (k.run c tree now).1.text =
    if k.syncs c now then tree.writeIn c.document.grammar else c.text := by
  rw [run_eq]
  split
  · rw [Controller.text_sync]
  · rfl

end Cause

/-! ### Timers -/

/-- A timer that has been started. -/
structure Alarm where
  number : Nat
  due : Time
deriving DecidableEq

/-- The timers of one controller. -/
structure Alarms where
  /-- Timers that were started and have neither fired nor been cancelled. -/
  running : List Alarm := []
  /-- The number of the timer that the controller can cancel. -/
  held : Option Nat := none
  /-- How many timers have been started; they are numbered in that order. -/
  started : Nat := 0

namespace Alarms

/-- A timer stops to run. -/
def remove (a : Alarms) (number : Nat) : Alarms :=
  { a with running := a.running.filter (·.number ≠ number) }

/-- Cancels the timer that is held, if there is one. -/
def cancel (a : Alarms) : Alarms :=
  match a.held with
  | none => a
  | some number => { a.remove number with held := none }

/-- Starts a timer and holds it. -/
def start (a : Alarms) (due : Time) : Alarms :=
  ⟨a.running ++ [⟨a.started, due⟩], some a.started, a.started + 1⟩

/-- The timers after an order of the controller. -/
def obey (a : Alarms) : TimerOrder → Alarms
  | .cancel => a.cancel
  | .restart due => a.cancel.start due
  | .release => { a with held := none }
  | .leave => a

end Alarms

/-! ### Benches -/

/-- Something that made the controller act, and the notice that it issued. -/
structure Event where
  time : Time
  cause : Cause
  notice : Option Notice
deriving DecidableEq

/-- A file at work, with its timers and its history. -/
structure Bench extends Desk where
  alarms : Alarms := {}
  log : List Event := []

namespace Bench

/-- A file that has just been opened, with a tree in the editor. -/
def opening (document : Document) (ids : IdCounter) (settings : SyncSettings) (now : Time)
    (tree : EditorNode) : Bench where
  controller := .start document ids settings now
  tree := tree
  now := now

/-- A document of one text. -/
def note (content : Text) : Document where
  uri := ['u']
  areas := [.leaf ⟨.zero, .text, content, none⟩]

/-- What can happen at a bench. -/
inductive Label where
  /-- Time passes up to the given time. -/
  | wait (stop : Time)
  /-- Somebody edits the tree in the editor and does not report it yet. -/
  | edit (tree : EditorNode)
  /-- Somebody edits the tree in the editor and reports it. -/
  | change (tree : EditorNode)
  /-- A timer fires. -/
  | fire (number : Nat)
  /-- The controller is flushed. -/
  | flush

/-- Whether an edit is reported at once; everything else is no edit. -/
def Label.isReported : Label → Bool
  | .edit _ => false
  | _ => true

/-- What makes the controller act, if it acts. -/
def Label.cause? : Label → Option Cause
  | .wait _ | .edit _ => none
  | .change _ => some .change
  | .fire _ => some .fire
  | .flush => some .flush

/-- Whether something can happen. Time does not go back, and a timer that runs fires once it is due,
    then or later. -/
def Possible (s : Bench) : Label → Prop
  | .wait stop => s.now ≤ stop
  | .fire number => ∃ a ∈ s.alarms.running, a.number = number ∧ a.due ≤ s.now
  | .edit _ | .change _ | .flush => True

/-- What happens around the controller: time passes, the tree is edited, a timer stops to run. -/
def prepare (s : Bench) : Label → Bench
  | .wait stop => { s with now := stop }
  | .edit tree | .change tree => { s with tree }
  | .fire number => { s with alarms := s.alarms.remove number }
  | .flush => s

/-- The bench after the controller has acted. -/
def act (s : Bench) (k : Cause) : Bench where
  toDesk := s.toDesk.carry (k.run s.controller s.tree s.now)
  alarms := s.alarms.obey (k.order s.controller s.now)
  log := s.log ++ [⟨s.now, k, (k.run s.controller s.tree s.now).2⟩]

/-- The bench after something has happened. -/
def next (s : Bench) (l : Label) : Bench :=
  match l.cause? with
  | none => s.prepare l
  | some k => (s.prepare l).act k

/-- One step of a bench. -/
def Step (s : Bench) (l : Label) (s' : Bench) : Prop := s.Possible l ∧ s' = s.next l

/-- A run of a bench: any number of steps, one after the other. -/
inductive Run : Bench → List Label → Bench → Prop where
  | nil (s : Bench) : Run s [] s
  | cons {s s' s'' : Bench} {l : Label} {labels : List Label} :
      Step s l s' → Run s' labels s'' → Run s (l :: labels) s''

instance (s : Bench) : (l : Label) → Decidable (s.Possible l)
  | .wait stop => inferInstanceAs (Decidable (s.now ≤ stop))
  | .fire number =>
    inferInstanceAs (Decidable (∃ a ∈ s.alarms.running, a.number = number ∧ a.due ≤ s.now))
  | .edit _ | .change _ | .flush => isTrue trivial

/-- The bench after several things have happened. -/
def after (s : Bench) (labels : List Label) : Bench := labels.foldl next s

/-- Whether several things can happen, one after the other. -/
def canHappen (s : Bench) : List Label → Bool
  | [] => true
  | l :: labels => decide (s.Possible l) && (s.next l).canHappen labels

/-- Whatever can happen is a run. -/
theorem run_after {s : Bench} {labels : List Label} (h : s.canHappen labels = true) :
    s.Run labels (s.after labels) := by
  induction labels generalizing s with
  | nil => exact .nil s
  | cons l labels ih =>
    obtain ⟨hpossible, hrest⟩ := Bool.and_eq_true_iff.1 h
    exact .cons ⟨of_decide_eq_true hpossible, rfl⟩ (ih hrest)

/-- What every step of a run preserves holds at its end. -/
theorem Run.preserves {P : Bench → Prop} {s s' : Bench} {labels : List Label}
    (hrun : Run s labels s') (hstep : ∀ l ∈ labels, ∀ s s', Step s l s' → P s → P s') (h : P s) :
    P s' := by
  induction hrun with
  | nil s => exact h
  | cons hs _ ih =>
    refine ih (fun l hl => hstep l (List.mem_cons_of_mem _ hl)) ?_
    exact hstep _ List.mem_cons_self _ _ hs h

@[simp] theorem controller_prepare (s : Bench) (l : Label) :
    (s.prepare l).controller = s.controller := by
  cases l <;> rfl

/-- In a step the controller acts or does nothing. -/
theorem Step.eq_or {s s' : Bench} {l : Label} (h : s.Step l s') :
    (l.cause? = none ∧ s' = s.prepare l) ∨
      ∃ k, l.cause? = some k ∧ s' = (s.prepare l).act k := by
  obtain ⟨-, rfl⟩ := h
  unfold next
  cases l.cause? with
  | none => exact .inl ⟨rfl, rfl⟩
  | some k => exact .inr ⟨k, rfl, rfl⟩

theorem grammar_act (s : Bench) (k : Cause) :
    (s.act k).controller.document.grammar = s.controller.document.grammar :=
  (k.outcome s.controller s.tree s.now).grammar

theorem text_act (s : Bench) (k : Cause) : (s.act k).controller.text =
    if k.syncs s.controller s.now then s.tree.writeIn s.controller.document.grammar
    else s.controller.text :=
  k.text_run s.controller s.tree s.now

/-- The areas of the tree in the editor, written in the grammar of the document. -/
def written (s : Bench) : Text := s.tree.writeIn s.controller.document.grammar

theorem write_extract_eq_written (s : Bench) (ids : IdCounter) :
    Area.write s.controller.document.grammar (s.tree.extract ids).1 = s.written :=
  s.tree.write_extract s.controller.document.grammar ids

@[simp] theorem written_act (s : Bench) (k : Cause) : (s.act k).written = s.written := by
  unfold written
  rw [grammar_act]
  rfl

theorem debouncer_act (s : Bench) (k : Cause) :
    (s.act k).controller.debouncer = k.debounce s.controller s.now :=
  k.debouncer_run s.controller s.tree s.now

theorem timer_act (s : Bench) (k : Cause) :
    (s.act k).controller.timer = (k.order s.controller s.now).noted s.controller.timer :=
  k.timer_run s.controller s.tree s.now

end Bench

end Worksheet
