import Worksheet.Dialect
import Worksheet.Settings.Real

/-! # Setting values

  What a settings file holds: scalars, lists, and tables of values by name. A value may be absent
  although its name is there. Scalars are converted where another kind is asked for, so that a
  number may be given as a text.
-/

namespace Worksheet

inductive Setting where
  /-- A name without a value. -/
  | absent
  | bool (value : Bool)
  | int (value : Int)
  | real (value : Float)
  | text (value : Text)
  | list (items : List Setting)
  | table (entries : List (Text × Setting))

namespace Setting

/-! ### Tables -/

/-- The value of a name in a table. -/
def lookup? (entries : List (Text × Setting)) (name : Text) : Option Setting :=
  (entries.find? (·.1 == name)).map (·.2)

/-- Puts a value under a name of a table; a name that is new comes last. -/
def insert (name : Text) (value : Setting) : List (Text × Setting) → List (Text × Setting)
  | [] => [(name, value)]
  | (other, old) :: rest =>
    if other = name then (other, value) :: rest else (other, old) :: insert name value rest

/-- The entries of a table; other values have none. -/
def entries : Setting → List (Text × Setting)
  | .table entries => entries
  | _ => []

/-! ### Conversions -/

/-- The words for true and for false. -/
def truth? (s : Text) : Option Bool :=
  let word := String.ofList s.asciiLower
  if ["true", "on", "yes"].contains word then some true
  else if ["false", "off", "no"].contains word then some false
  else none

/-- A number of at most 64 bits, or none if it has more. -/
def fitting? (n : Nat) : Option Nat := if n < Nat.pow 2 64 then some n else none

/-- A natural number of 64 bits. Reals are rounded, a half away from zero, and cut to the range. -/
def nat? : Setting → Option Nat
  | bool b => some b.toNat
  | int n => if 0 ≤ n then fitting? n.toNat else none
  | real x => some x.round.toUInt64.toNat
  | text s =>
    match truth? s with
    | some b => some b.toNat
    | none => (Digits.number? 10 (if s.head? = some '+' then s.drop 1 else s)).bind fitting?
  | _ => none

/-- A truth value. Numbers other than zero are true. -/
def bool? : Setting → Option Bool
  | bool b => some b
  | int n => some (n ≠ 0)
  | real x => some (x != 0)
  | text s =>
    match truth? s with
    | some b => some b
    | none => if s = ['1'] then some true else if s = ['0'] then some false else none
  | _ => none

/-- A decimal integer with its sign. -/
def signed : Int → Text
  | .ofNat n => decimal n
  | .negSucc n => '-' :: decimal (n + 1)

/-- A text. Other scalars are written out. -/
def text? : Setting → Option Text
  | text s => some s
  | bool b => some (if b then "true".toList else "false".toList)
  | int n => some (signed n)
  | real x => some (Real.display x)
  | _ => none

/-- A dialect by its name, in any case, or as a table with that name alone. -/
def dialect? : Setting → Option Dialect
  | text s => (Dialect.ofName (String.ofList s)).toOption
  | table [(name, _)] => (Dialect.ofName (String.ofList name)).toOption
  | _ => none

end Setting

end Worksheet
