import Worksheet.Digits

/-! # Numbers

  Integers have 64 bits and are written in base ten, or without a sign in base sixteen, eight or
  two. Reals have a fraction, an exponent, or both. Single underscores may stand between digits. A
  positive real that is out of range is refused.
-/

namespace Worksheet.Toml

/-- The digits of a number without the underscores between them. -/
def ungroup? (isDigit : Char → Bool) (s : Text) : Option Text :=
  let groups := s.splitOn '_'
  if groups.all fun g => g ≠ [] ∧ g.all isDigit then some groups.flatten else none

/-- Splits the sign off a number; whether it is negative. -/
def unsigned : Text → Bool × Text
  | '-' :: s => (true, s)
  | '+' :: s => (false, s)
  | s => (false, s)

/-- Decimal digits without a leading zero, unless they are one zero. -/
def wholeDigits? (s : Text) : Option Text :=
  if s.head? = some '0' ∧ s ≠ ['0'] then none else ungroup? Char.isDigit s

/-! ### Integers -/

/-- The base that the start of a number names, and its digits. -/
def base? : Text → Option (Nat × Text)
  | '0' :: 'x' :: s => some (16, s)
  | '0' :: 'o' :: s => some (8, s)
  | '0' :: 'b' :: s => some (2, s)
  | _ => none

/-- The value of an integer, however large. -/
def unbounded? (s : Text) : Option Int :=
  match base? s with
  | some (base, digits) =>
    let isDigit (c : Char) := ((Digits.value? c).filter (· < base)).isSome
    ((ungroup? isDigit digits).bind (Digits.number? base)).map Int.ofNat
  | none =>
    let (negative, digits) := unsigned s
    ((wholeDigits? digits).bind (Digits.number? 10)).map fun n => if negative then - (n : Int) else n

/-- An integer of 64 bits. -/
def integer? (s : Text) : Option Int :=
  (unbounded? s).filter fun n => -Int.pow 2 63 ≤ n ∧ n < Int.pow 2 63

/-! ### Reals -/

/-- The real number nearest to `digits · 10 ^ power`, not negative. -/
def scaled (digits : Nat) (power : Int) : Float :=
  let size := ((decimal digits).length : Int) + power
  if digits = 0 ∨ size < -400 then 0
  else if 400 < size then 1.0 / 0.0
  else .ofScientific digits (power < 0) power.natAbs

/-- The exponent behind its mark, zero if there is none. -/
def exponent? : Text → Option Int
  | [] => some 0
  | _ :: s => do
    let (negative, digits) := unsigned s
    let n ← Digits.number? 10 (← ungroup? Char.isDigit digits)
    return if negative then - (n : Int) else n

/-- The digits of a fraction behind its point, none if there is no point. -/
def fraction? : Text → Option Text
  | [] => some []
  | _ :: s => ungroup? Char.isDigit s

def real? (s : Text) : Option Float := do
  let (negative, digits) := unsigned s
  let sign (x : Float) : Float := if negative then -x else x
  if digits = "inf".toList then sign (1.0 / 0.0)
  else if digits = "nan".toList then sign (0.0 / 0.0)
  else
    let (mantissa, power) := digits.span fun c => c != 'e' && c != 'E'
    let (whole, fraction) := mantissa.span (· != '.')
    if power = [] ∧ fraction = [] then none
    else
      let places ← fraction? fraction
      let n ← Digits.number? 10 ((← wholeDigits? whole) ++ places)
      let x := scaled n ((← exponent? power) - places.length)
      if x.isInf ∧ ¬ negative then none else sign x

end Worksheet.Toml
