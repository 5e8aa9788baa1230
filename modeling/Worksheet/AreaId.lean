import Worksheet.Position

/-! # Area identifiers

  Areas are named by 64-bit numbers that a counter hands out. The counter can be wound back to a
  checkpoint, but never to a number it has seen in use: `observe` raises a floor below which
  `restore` does not go. At the top of the range the counter stays where it is.
-/

namespace Worksheet

/-! ### Identifiers -/

/-- The name of an area: a number below `2 ^ 64`. -/
structure AreaId where
  val : Nat
  val_lt : val < Nat.pow 2 64 := by decide
deriving DecidableEq

namespace AreaId

/-- The first identifier. -/
def zero : AreaId := ⟨0, by decide⟩

/-- The identifier of a number, if it is in range. -/
def ofNat? (n : Nat) : Option AreaId := if h : n < Nat.pow 2 64 then some ⟨n, h⟩ else none

/-- The next identifier; the last one is its own successor. -/
def succ (a : AreaId) : AreaId := if h : a.val + 1 < Nat.pow 2 64 then ⟨a.val + 1, h⟩ else a

theorem val_succ (a : AreaId) : a.succ.val = min (a.val + 1) (Nat.pow 2 64 - 1) := by
  have := a.val_lt
  unfold succ
  split
  · show a.val + 1 = _
    omega
  · omega

/-- The larger of two identifiers. -/
def max (a b : AreaId) : AreaId := if a.val ≤ b.val then b else a

theorem val_max (a b : AreaId) : (a.max b).val = Max.max a.val b.val := by
  unfold max
  split <;> omega

/-- An identifier as `#n`. -/
def display (a : AreaId) : Text := '#' :: decimal a.val

end AreaId

/-! ### The counter -/

/-- A saved state of a counter. -/
structure Checkpoint where
  next : AreaId
deriving DecidableEq

/-- Hands out identifiers in increasing order. -/
structure IdCounter where
  /-- The identifier that is handed out next. -/
  next : AreaId := .zero
  /-- The smallest identifier the counter may be wound back to. -/
  floor : AreaId := .zero
deriving DecidableEq

namespace IdCounter

/-- A counter that hands out `first` first. -/
def startingAt (first : AreaId) : IdCounter := { next := first }

/-- Hands out the next identifier. -/
def fresh (c : IdCounter) : AreaId × IdCounter := (c.next, { c with next := c.next.succ })

/-- Records an identifier that is in use, so that it is never handed out again. -/
def observe (c : IdCounter) (id : AreaId) : IdCounter :=
  let floor := c.floor.max id.succ
  { next := c.next.max floor, floor }

def checkpoint (c : IdCounter) : Checkpoint := ⟨c.next⟩

/-- Winds the counter back, but never below an observed identifier. -/
def restore (c : IdCounter) (saved : Checkpoint) : IdCounter :=
  { c with next := saved.next.max c.floor }

end IdCounter

end Worksheet
