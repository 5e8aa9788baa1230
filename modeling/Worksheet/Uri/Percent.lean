import Worksheet.Digits
import Worksheet.Utf8

/-! # Percent form

  A byte in percent form is a percent sign and two digits of base sixteen. Characters that cannot be
  printed are written byte by byte in percent form wherever they occur in a URI; which others are
  depends on the part they stand in.
-/

namespace Worksheet.Percent

/-! ### Writing -/

/-- A byte in percent form. -/
def ofByte (b : UInt8) : Text :=
  ['%', (Digits.hex (b.toNat / 16)).toUpper, (Digits.hex (b.toNat % 16)).toUpper]

/-- A character in percent form. -/
def ofChar (c : Char) : Text := (String.utf8EncodeChar c).flatMap ofByte

/-- Characters that have no place in a URI: controls and those beyond ASCII. -/
def isUnprintable (c : Char) : Bool := c.toNat < 0x20 || 0x7F ≤ c.toNat

/-- A text where the characters that cannot be printed and those of `special` are in percent
    form. -/
def encode (special : List Char) (s : Text) : Text :=
  s.flatMap fun c => if isUnprintable c || special.contains c then ofChar c else [c]

/-! ### What is in percent form -/

/-- In a fragment. -/
def fragment : List Char := [' ', '"', '<', '>', '`']

/-- In a path. -/
def path : List Char := fragment ++ ['#', '?', '\x7b', '\x7d']

/-- In a component that a path is made of. -/
def component : List Char := path ++ ['/', '%', '\\']

/-- In the name or the password of a user. -/
def user : List Char := path ++ ['/', ':', ';', '=', '@', '[', '\\', ']', '^', '|']

/-- In a query. -/
def query : List Char := [' ', '"', '#', '<', '>']

/-! ### Reading -/

/-- The bytes of a text, where bytes in percent form stand for themselves. A percent sign without
    two digits is a character like others. -/
def decode : Text → List UInt8
  | [] => []
  | '%' :: a :: b :: s =>
    match Digits.value? a, Digits.value? b with
    | some x, some y => (16 * x + y).toUInt8 :: decode s
    | _, _ => '%'.toNat.toUInt8 :: decode (a :: b :: s)
  | c :: s => String.utf8EncodeChar c ++ decode s

end Worksheet.Percent
