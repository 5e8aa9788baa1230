import Worksheet.Digits
import Worksheet.Toml.Reader

/-! # Dates and times

  A date, a time, or a date with a time, which may have an offset from universal time. They are kept
  as text in one form: with a `T` before the time, with as many decimals of the second as it needs
  and at most nine, and with `Z` or a signed offset at the end. What stands for itself keeps to the
  clock; a moment that is given as a text may also end its day at the hour 24, and have an offset of
  up to a day in any number of minutes.
-/

namespace Worksheet.Toml

/-- The greatest numbers that a moment may have in its parts. -/
structure MomentLimits where
  hour : Nat
  offsetHour : Nat
  offsetMinute : Nat

/-- Limits of a moment that stands for itself. -/
def MomentLimits.clock : MomentLimits := ⟨23, 23, 59⟩

/-- Limits of a moment that is given as a text. -/
def MomentLimits.lenient : MomentLimits := ⟨24, 99, 99⟩

/-- Reads a number of exactly two digits that lies in a range. -/
def twoDigits? (low high : Nat) : Reader Nat
  | a :: b :: s =>
    if a.isDigit && b.isDigit then
      ((Digits.number? 10 [a, b]).filter fun n => low ≤ n ∧ n ≤ high).map (·, s)
    else none
  | _ => none

/-- Writes a number with two digits. -/
def twoDigits (n : Nat) : Text := [Digits.hex (n / 10), Digits.hex (n % 10)]

/-! ### Dates -/

def isLeapYear (year : Nat) : Bool := year % 4 == 0 && (year % 100 != 0 || year % 400 == 0)

def daysInMonth (year month : Nat) : Nat :=
  if month = 2 then (if isLeapYear year then 29 else 28)
  else if [4, 6, 9, 11].contains month then 30
  else 31

/-- Reads a date that exists. -/
def date? : Reader Text := fun s => do
  let (century, s) ← twoDigits? 0 99 s
  let (year, s) ← twoDigits? 0 99 s
  let (_, s) ← Reader.expect ['-'] s
  let (month, s) ← twoDigits? 1 12 s
  let (_, s) ← Reader.expect ['-'] s
  let (day, s) ← twoDigits? 1 (daysInMonth (100 * century + year) month) s
  return (twoDigits century ++ twoDigits year ++ '-' :: twoDigits month ++ '-' :: twoDigits day, s)

/-! ### Times -/

/-- Reads the decimals of a second, if there are any; those beyond the ninth do not count. -/
def decimals? : Reader Text
  | '.' :: s =>
    let (digits, rest) := s.span Char.isDigit
    if digits = [] then none
    else
      let kept := ((digits.take 9).reverse.dropWhile (· == '0')).reverse
      some (if kept = [] then [] else '.' :: kept, rest)
  | s => some ([], s)

/-- Reads a time. A minute may have a leap second. -/
def time? (limits : MomentLimits) : Reader Text := fun s => do
  let (hour, s) ← twoDigits? 0 limits.hour s
  let (_, s) ← Reader.expect [':'] s
  let (minute, s) ← twoDigits? 0 59 s
  let (_, s) ← Reader.expect [':'] s
  let (second, s) ← twoDigits? 0 60 s
  let (decimals, s) ← decimals? s
  return (twoDigits hour ++ ':' :: twoDigits minute ++ ':' :: twoDigits second ++ decimals, s)

/-- Reads an offset, if there is one. An offset of nothing is written with a plus. -/
def offset? (limits : MomentLimits) : Reader Text
  | 'Z' :: s | 'z' :: s => some (['Z'], s)
  | c :: s =>
    if c == '+' || c == '-' then do
      let (hours, s) ← twoDigits? 0 limits.offsetHour s
      let (_, s) ← Reader.expect [':'] s
      let (minutes, s) ← twoDigits? 0 limits.offsetMinute s
      let total := 60 * hours + minutes
      if total ≤ 24 * 60 then
        return ((if total = 0 then '+' else c) :: twoDigits (total / 60) ++
          ':' :: twoDigits (total % 60), s)
      else none
    else some ([], c :: s)
  | [] => some ([], [])

/-- Reads a time with an offset, behind what separates it from its date, if they are there. -/
def timeOfDate? (limits : MomentLimits) : Reader Text
  | [] => some ([], [])
  | c :: s =>
    if c == 'T' || c == 't' || c == ' ' then do
      let (time, s) ← time? limits s
      let (offset, s) ← offset? limits s
      return ('T' :: time ++ offset, s)
    else some ([], c :: s)

/-- A date, a time, or both. -/
def moment? (limits : MomentLimits) (s : Text) : Option Text :=
  (Reader.all (fun s => do
    let (date, s) ← date? s
    let (time, s) ← timeOfDate? limits s
    return (date ++ time, s)) s) <|> Reader.all (time? limits) s

end Worksheet.Toml
