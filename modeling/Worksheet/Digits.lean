import Worksheet.Text

/-! # Digits

  Natural numbers in positional notation, in bases up to sixteen. The letters among the digits may
  be of either case where they are read.
-/

namespace Worksheet

/-- The decimal digits of a number. -/
def decimal (n : Nat) : Text := Nat.toDigits 10 n

namespace Digits

/-- A digit of base sixteen, in lower case. -/
def hex (n : Nat) : Char :=
  if n < 10 then Char.ofNat ('0'.toNat + n) else Char.ofNat ('a'.toNat + (n - 10))

/-- The value of a digit of base sixteen. -/
def value? (c : Char) : Option Nat :=
  if c.isDigit then some (c.toNat - '0'.toNat)
  else
    let lower := c.toLower
    if 'a' ≤ lower ∧ lower ≤ 'f' then some (lower.toNat - 'a'.toNat + 10) else none

/-- The number that digits in a base stand for; there has to be one at least. -/
def number? (base : Nat) (digits : Text) : Option Nat :=
  if digits = [] then none
  else digits.foldlM (fun n c => ((value? c).filter (· < base)).map (base * n + ·)) 0

end Digits

end Worksheet
