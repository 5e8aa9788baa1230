import Worksheet.Digits

/-! # Numeric addresses

  An address of version 4 is a number of 32 bits. It is written as up to four numbers between dots,
  of which the last takes all the bytes that the others leave; they may be in base sixteen, eight or
  ten. An address of version 6 is eight pieces of 16 bits in base sixteen between colons. Two colons
  in a row stand for zero pieces, of which there may be one run, and the last two pieces may be
  written like an address of version 4.
-/

namespace Worksheet.Address

/-! ### Version 4 -/

/-- A number whose first characters name its base. Nothing behind them is zero. -/
def part? (s : Text) : Option Nat :=
  match s with
  | '0' :: 'x' :: [] | '0' :: 'X' :: [] => some 0
  | '0' :: 'x' :: digits | '0' :: 'X' :: digits => Digits.number? 16 digits
  | '0' :: d :: digits => Digits.number? 8 (d :: digits)
  | digits => Digits.number? 10 digits

/-- The parts of a name between dots, where a dot at its end does not count. -/
def dotted (s : Text) : List Text :=
  let parts := s.splitOn '.'
  if parts.getLast? = some [] then parts.dropLast else parts

/-- Whether the last part of a name is a number, so that the name has to be an address. -/
def endsInNumber (s : Text) : Bool :=
  match (dotted s).getLast? with
  | some [] | none => false
  | some last => last.all Char.isDigit || (part? last).isSome

/-- Puts the bytes of an address together, from the first on. The last part fills the address up. -/
def join4? : (remaining : Nat) → List Nat → Option Nat
  | _, [] => none
  | remaining, [n] => if n < Nat.pow 256 remaining then some n else none
  | 0, _ :: _ :: _ => none
  | remaining + 1, n :: rest =>
    if n < 256 then (join4? remaining rest).map (n * Nat.pow 256 remaining + ·) else none

/-- Reads an address of version 4. -/
def version4? (s : Text) : Option Nat :=
  let parts := dotted s
  if parts.length ≤ 4 then (parts.mapM part?).bind (join4? 4) else none

/-- Writes an address of version 4. -/
def display4 (n : Nat) : Text :=
  List.intercalate ['.'] ([3, 2, 1, 0].map fun i => decimal (n / Nat.pow 256 i % 256))

/-! ### Version 6 -/

/-- One byte of an address of version 4 inside one of version 6. -/
def octet? (s : Text) : Option Nat :=
  if s.length ≤ 3 ∧ (s.length = 1 ∨ s.head? ≠ some '0') then
    (Digits.number? 10 s).filter (· < 256)
  else none

/-- The two pieces that an address of version 4 stands for. -/
def quad? (s : Text) : Option (List Nat) :=
  match (s.splitOn '.').mapM octet? with
  | some [a, b, c, d] => some [256 * a + b, 256 * c + d]
  | _ => none

/-- One piece. -/
def piece? (s : Text) : Option Nat := if s.length ≤ 4 then Digits.number? 16 s else none

/-- Pieces between colons; `isEnd` says that nothing follows them. -/
def pieces? (isEnd : Bool) (s : Text) : Option (List Nat) :=
  if s = [] then some []
  else
    let parts := s.splitOn ':'
    match parts.getLast? with
    | none => none
    | some last =>
      if isEnd && last.contains '.' then do
        return (← parts.dropLast.mapM piece?) ++ (← quad? last)
      else parts.mapM piece?

/-- Reads an address of version 6. -/
def version6? (s : Text) : Option (List Nat) :=
  match Text.cut? [':', ':'] s with
  | none => (pieces? true s).filter (·.length = 8)
  | some (before, after) => do
    let first ← pieces? false before
    let last ← pieces? true after
    if first.length + last.length < 8 then
      return first ++ List.replicate (8 - first.length - last.length) 0 ++ last
    else none

/-- How many zero pieces a list begins with. -/
def leadingZeros (pieces : List Nat) : Nat := (pieces.takeWhile (· = 0)).length

/-- The longest run of zero pieces, at least two, the first of those that are equally long: where it
    begins, and its length. -/
def zeroRun? (pieces : List Nat) : Option (Nat × Nat) :=
  (List.range pieces.length).foldl (fun best i =>
    let n := leadingZeros (pieces.drop i)
    if (best.map (·.2)).getD 1 < n then some (i, n) else best) none

/-- Writes pieces between colons. -/
def displayPieces (pieces : List Nat) : Text :=
  List.intercalate [':'] (pieces.map (Nat.toDigits 16))

/-- Writes an address of version 6; the longest run of zero pieces is left out. -/
def display6 (pieces : List Nat) : Text :=
  match zeroRun? pieces with
  | none => displayPieces pieces
  | some (start, length) =>
    displayPieces (pieces.take start) ++ [':', ':'] ++ displayPieces (pieces.drop (start + length))

end Worksheet.Address
