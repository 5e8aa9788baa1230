import Worksheet.Text

/-! # Labels

  The labels of a host name are in ASCII. One with other characters is written as a prefix, its
  characters of ASCII and the deltas of the others: from the smallest code point up, each occurrence
  counts the places passed since the one before, over all rounds through the label. A delta is a
  number with digits of base 36, the least significant first, where the digit that ends it lies
  below a threshold that adapts to the deltas so far.
-/

namespace Worksheet.Label

/-! ### Deltas -/

/-- A digit of base 36. -/
def digit (d : Nat) : Char :=
  if d < 26 then Char.ofNat ('a'.toNat + d) else Char.ofNat ('0'.toNat + (d - 26))

/-- The threshold at the place `k / 36` of a delta. -/
def threshold (k bias : Nat) : Nat := max 1 (min 26 (k - bias))

/-- A threshold is positive, so that a delta shrinks from each place to the next. -/
theorem one_le_threshold (k bias : Nat) : 1 ≤ threshold k bias := Nat.le_max_left _ _

/-- Writes a delta from the place `k / 36` on. -/
def writeDelta (bias k q : Nat) : Text :=
  let t := threshold k bias
  if q < t then [digit q]
  else digit (t + (q - t) % (36 - t)) :: writeDelta bias (k + 36) ((q - t) / (36 - t))
termination_by q
decreasing_by
  have h_pos := one_le_threshold k bias
  have h_div := Nat.div_le_self (q - threshold k bias) (36 - threshold k bias)
  omega

/-- Divides a delta down to the range of a single place; how often, and what is left. -/
def scaleDown (delta k : Nat) : Nat × Nat :=
  if 455 < delta then scaleDown (delta / 35) (k + 36) else (delta, k)
termination_by delta
decreasing_by exact Nat.div_lt_self (by omega) (by omega)

/-- The bias after a delta, where `count` characters are written. -/
def adapt (delta count : Nat) (isFirst : Bool) : Nat :=
  let delta := if isFirst then delta / 700 else delta / 2
  let (delta, k) := scaleDown (delta + delta / count) 0
  k + 36 * delta / (delta + 38)

/-! ### Labels in ASCII -/

/-- A label as far as it is written. -/
structure Draft where
  text : Text
  delta : Nat := 0
  bias : Nat := 72
  /-- How many of its characters are written. -/
  count : Nat

/-- Passes a character in the round of a code point. -/
def Draft.pass (basic code : Nat) (d : Draft) (c : Char) : Draft :=
  if c.toNat < code then { d with delta := d.delta + 1 }
  else if c.toNat = code then
    { text := d.text ++ writeDelta d.bias 36 d.delta
      delta := 0
      bias := adapt d.delta (d.count + 1) (d.count = basic)
      count := d.count + 1 }
  else d

/-- Writes the characters of the code points that are left, all of which are at least `low`. -/
def Draft.rounds (label : Text) (basic : Nat) : (low : Nat) → List Nat → Draft → Draft
  | _, [], d => d
  | low, code :: rest, d =>
    let d := { d with delta := d.delta + (code - low) * (d.count + 1) }
    let d := label.foldl (Draft.pass basic code) d
    Draft.rounds label basic (code + 1) rest { d with delta := d.delta + 1 }

def isAscii (c : Char) : Bool := c.toNat < 0x80

/-- A label in ASCII, its characters of ASCII first. -/
def toAscii (label : Text) : Text :=
  if label.all isAscii then label
  else
    let plain := label.filter isAscii
    let codes := ((label.filter (! isAscii ·)).map Char.toNat).eraseDups.mergeSort
    let start := if plain = [] then [] else plain ++ ['-']
    "xn--".toList ++
      (Draft.rounds label plain.length 0x80 codes { text := start, count := plain.length }).text

end Worksheet.Label
