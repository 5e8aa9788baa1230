import Worksheet.Text

/-! # UTF-8

  Bytes are read one character at a time. Where they are ill-formed, the longest run of bytes that a
  character could begin with is one fault, and reading goes on behind it. Only bytes without faults
  are a text.
-/

namespace Worksheet.Utf8

/-! ### One character -/

/-- What the first byte of a character says: its own bits, and the ranges of the bytes that
    follow. -/
def lead? (b : Nat) : Option (Nat × List (Nat × Nat)) :=
  let rest : Nat × Nat := (0x80, 0xBF)
  if b < 0x80 then some (b, [])
  else if b < 0xC2 then none
  else if b < 0xE0 then some (b - 0xC0, [rest])
  else if b < 0xF0 then
    let second : Nat × Nat :=
      if b = 0xE0 then (0xA0, 0xBF) else if b = 0xED then (0x80, 0x9F) else rest
    some (b - 0xE0, [second, rest])
  else if b < 0xF5 then
    let second : Nat × Nat :=
      if b = 0xF0 then (0x90, 0xBF) else if b = 0xF4 then (0x80, 0x8F) else rest
    some (b - 0xF0, [second, rest, rest])
  else none

/-- Adds the bits of the bytes that follow, as long as they lie in their ranges. The code point is
    missing if one of them does not. -/
def continue? : (code : Nat) → List (Nat × Nat) → List UInt8 → Option Nat × List UInt8
  | code, [], bytes => (some code, bytes)
  | _, _ :: _, [] => (none, [])
  | code, (low, high) :: ranges, b :: bytes =>
    if low ≤ b.toNat ∧ b.toNat ≤ high then continue? (64 * code + (b.toNat - 0x80)) ranges bytes
    else (none, b :: bytes)

/-- The character or fault that some bytes begin with, where `none` is a fault. -/
def next (b : UInt8) (bytes : List UInt8) : Option Char × List UInt8 :=
  match lead? b.toNat with
  | none => (none, bytes)
  | some (code, ranges) =>
    let (code, rest) := continue? code ranges bytes
    (code.map Char.ofNat, rest)

/-! ### Texts -/

/-- The characters and faults that bytes consist of. -/
def units : List UInt8 → List (Option Char)
  | [] => []
  | b :: bytes =>
    let (unit, rest) := next b bytes
    if rest.length ≤ bytes.length then unit :: units rest else [unit]
termination_by bytes => bytes.length

/-- The text of bytes without faults. -/
def decode? (bytes : List UInt8) : Option Text := (units bytes).mapM id

/-- The bytes of a text. -/
def encode (s : Text) : List UInt8 := s.flatMap String.utf8EncodeChar

end Worksheet.Utf8
