import Worksheet.Position

/-! # Durations

  Times are whole milliseconds from a common origin, and durations are whole milliseconds. A
  duration is written in seconds from one second on, with as many decimals as it needs, and in
  milliseconds below.
-/

namespace Worksheet

/-- A point in time, in milliseconds. -/
abbrev Time := Nat

/-- A length of time, in milliseconds. -/
abbrev Duration := Nat

namespace Duration

/-- The decimals of so many thousandths, without zeros at the end. -/
def decimals (thousandths : Nat) : Text :=
  let digits := [thousandths / 100, thousandths / 10, thousandths].map fun n =>
    Char.ofNat ('0'.toNat + n % 10)
  (digits.reverse.dropWhile (· == '0')).reverse

/-- A duration with its unit. -/
def display (d : Duration) : Text :=
  if d = 0 then ['0', 'n', 's']
  else if d < 1000 then decimal d ++ ['m', 's']
  else
    match decimals (d % 1000) with
    | [] => decimal (d / 1000) ++ ['s']
    | digits => decimal (d / 1000) ++ '.' :: digits ++ ['s']

end Duration

end Worksheet
