import Worksheet.Session.Basic

/-! # A file at work

  A controller does nothing on its own: somebody edits the tree in the editor and reports edits,
  time passes, a timer fires, the file is saved or closed. A desk is all of this together, and its
  steps are the parts that run while nobody else holds the document. Everything that can happen to a
  controller, in any order, is a run of a desk.

  What happens decides how the desk is left, and as long as time does not go back nothing is in the
  way of it (`Desk.run_after`). So a run can be followed to its end.

  Saving is a flush after which the text is read. Closing is a flush, then a step of its own that
  cancels the timer; other steps may come between the two.
-/

namespace Worksheet

/-! ### Desks -/

/-- A file at work: its controller, the editor and the clock beside it, and what has been issued. -/
structure Desk where
  controller : Controller
  /-- The tree in the editor. -/
  tree : EditorNode
  now : Time
  /-- The notices that were issued so far, and when. -/
  issued : List (Time × Notice) := []

namespace Desk

/-- What can happen at a desk. -/
inductive Label where
  /-- Somebody edits the tree in the editor. -/
  | edit (tree : EditorNode)
  /-- Time passes up to the given time. -/
  | wait (stop : Time)
  /-- An edit is reported to the controller. -/
  | report
  /-- A timer fires: the armed one, or one that was cancelled too late to be held back. -/
  | fire
  /-- The controller is flushed; saving and closing begin so. -/
  | flush
  /-- The timer is cancelled; closing ends so. -/
  | stop

/-- The desk after the controller has done something, and perhaps issued a notice. -/
def carry (s : Desk) (result : Controller × Option Notice) : Desk :=
  { s with controller := result.1, issued := s.issued ++ result.2.toList.map (s.now, ·) }

/-- One step of a desk. Time does not go back. Nothing is asked of a timer that fires: whether
    anything comes of it is for the controller to decide. -/
def Step (s : Desk) (l : Label) (s' : Desk) : Prop :=
  match l with
  | .edit tree => s' = { s with tree }
  | .wait stop => s.now ≤ stop ∧ s' = { s with now := stop }
  | .report => s' = s.carry (s.controller.change s.tree s.now)
  | .fire => s' = s.carry (s.controller.fire s.tree s.now)
  | .flush => s' = s.carry (s.controller.flush s.tree s.now)
  | .stop => s' = { s with controller := s.controller.cancelTimer }

/-- A run of a desk: any number of steps, one after the other. -/
inductive Run : Desk → List Label → Desk → Prop where
  | nil (s : Desk) : Run s [] s
  | cons {s s' s'' : Desk} {l : Label} {labels : List Label} :
      Step s l s' → Run s' labels s'' → Run s (l :: labels) s''

/-- What every step preserves holds along every run. -/
theorem Run.preserves {P : Desk → Prop} (hstep : ∀ s l s', Step s l s' → P s → P s')
    {s s' : Desk} {labels : List Label} (hrun : Run s labels s') (h : P s) : P s' := by
  induction hrun with
  | nil s => exact h
  | cons hs _ ih => exact ih (hstep _ _ _ hs h)

/-- The desk after something has happened. -/
def next (s : Desk) : Label → Desk
  | .edit tree => { s with tree }
  | .wait stop => { s with now := stop }
  | .report => s.carry (s.controller.change s.tree s.now)
  | .fire => s.carry (s.controller.fire s.tree s.now)
  | .flush => s.carry (s.controller.flush s.tree s.now)
  | .stop => { s with controller := s.controller.cancelTimer }

/-- The desk after several things have happened. -/
def after (s : Desk) (labels : List Label) : Desk := labels.foldl next s

/-- Whether time goes on from the given time and never back. -/
def goesOn (now : Time) : List Label → Bool
  | [] => true
  | .wait stop :: labels => decide (now ≤ stop) && goesOn stop labels
  | _ :: labels => goesOn now labels

/-- As long as time does not go back, anything can happen in any order. -/
theorem run_after {s : Desk} {labels : List Label} (h : goesOn s.now labels = true) :
    s.Run labels (s.after labels) := by
  induction labels generalizing s with
  | nil => exact .nil s
  | cons l labels ih =>
    cases l with
    | wait stop =>
      obtain ⟨hle, hrest⟩ := Bool.and_eq_true_iff.1 h
      exact .cons ⟨of_decide_eq_true hle, rfl⟩ (ih hrest)
    | _ => exact .cons rfl (ih h)

/-- The desk of a file when it has just been opened in a session. -/
def atOpening (s : Session) (f : OpenFile) : Desk where
  controller := f.controller
  tree := s.editor.tree
  now := s.now

end Desk

end Worksheet
