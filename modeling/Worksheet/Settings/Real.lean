import Worksheet.Position

/-! # Decimal text of real numbers

  A real number is written with the fewest digits that identify it among the numbers a `Float` can
  hold, without an exponent. The search goes from coarse decimal grids to fine ones; on each the two
  neighbours of the number are tried, the nearer one first and the upper one in a tie.
-/

namespace Worksheet.Real

/-! ### The rounding interval -/

/-- A positive number as a fraction, and the numbers that round to it: four times the fraction, its
    distance to the lower and to the upper end in the same unit, and whether the ends belong to
    the interval. -/
structure Interval where
  numerator : Nat
  denominator : Nat
  below : Nat
  above : Nat
  closed : Bool

/-- The interval of a finite positive number, from its mantissa and exponent fields. -/
def Interval.ofFields (exponent mantissa : Nat) : Interval :=
  let m := if exponent = 0 then mantissa else mantissa + Nat.pow 2 52
  let power := Max.max exponent 1
  let scale := Nat.pow 2 (power - 1077)
  { numerator := 4 * m * scale
    denominator := Nat.pow 2 (1077 - power)
    below := (if mantissa = 0 ∧ 1 < exponent then 1 else 2) * scale
    above := 2 * scale
    closed := m % 2 = 0 }

/-- Whether `digits / 10 ^ places · 10 ^ zeros` rounds to the number. -/
def Interval.holds (i : Interval) (digits zeros places : Nat) : Bool :=
  let point := digits * Nat.pow 10 zeros * i.denominator
  let low := (i.numerator - i.below) * Nat.pow 10 places
  let high := (i.numerator + i.above) * Nat.pow 10 places
  if i.closed then low ≤ point && point ≤ high else low < point && point < high

/-! ### The search -/

/-- A decimal: digits, then zeros before the point, or the number of digits behind it. -/
structure Decimal where
  digits : Nat
  zeros : Nat
  places : Nat

/-- The neighbour of the number on a grid that is nearer, if it rounds to the number, or else the
    other one. -/
def Interval.neighbour? (i : Interval) (zeros places : Nat) : Option Decimal :=
  let scaled := i.numerator * Nat.pow 10 places
  let unit := i.denominator * Nat.pow 10 zeros
  let lower := scaled / unit
  let candidates := if 2 * (scaled % unit) < unit then [lower, lower + 1] else [lower + 1, lower]
  (candidates.find? fun d => i.holds d zeros places).map fun d => ⟨d, zeros, places⟩

/-- All grids, from coarse to fine. -/
def grids : List (Nat × Nat) :=
  (List.range 309).reverse.map (·, 0) ++ (List.range 1100).map fun places => (0, places + 1)

/-- The first hit on the grids whose unit is at most ten times the number. -/
def Interval.shortest (i : Interval) : Decimal :=
  ((grids.dropWhile fun (zeros, places) =>
    10 * i.numerator * Nat.pow 10 places < i.denominator * Nat.pow 10 zeros).findSome?
      fun (zeros, places) => i.neighbour? zeros places).getD ⟨0, 0, 0⟩

/-! ### Text -/

def Decimal.display (d : Decimal) : Text :=
  let digits := decimal d.digits ++ List.replicate d.zeros '0'
  if d.places = 0 then digits
  else
    let padded := List.replicate (d.places + 1 - digits.length) '0' ++ digits
    padded.take (padded.length - d.places) ++ '.' :: padded.drop (padded.length - d.places)

/-- A number with the fewest digits that identify it. -/
def display (x : Float) : Text :=
  let bits := x.toBits.toNat
  let sign := if bits / Nat.pow 2 63 = 1 then ['-'] else []
  let exponent := bits / Nat.pow 2 52 % Nat.pow 2 11
  let mantissa := bits % Nat.pow 2 52
  if exponent = 2047 then
    if mantissa = 0 then sign ++ ['i', 'n', 'f'] else ['N', 'a', 'N']
  else if exponent = 0 ∧ mantissa = 0 then sign ++ ['0']
  else sign ++ (Interval.ofFields exponent mantissa).shortest.display

end Worksheet.Real
