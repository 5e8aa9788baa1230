/-! # Text

  Document text is a list of characters. Three measures of it matter here: bytes of UTF-8, in
  which spans and offsets are counted; UTF-16 code units, in which columns are counted; and
  line feeds, in which lines are counted.

  An offset names a place only when it falls between two characters, so everything that cuts a
  text at an offset answers `none` for an offset inside a character.
-/

namespace Worksheet

/-- Document text, as a list of characters. -/
abbrev Text := List Char

namespace Text

/-! ### Measures -/

/-- Number of bytes of the UTF-8 form of a text. -/
def utf8Length : Text → Nat
  | [] => 0
  | c :: s => c.utf8Size + utf8Length s

@[simp] theorem utf8Length_nil : utf8Length [] = 0 := rfl

@[simp] theorem utf8Length_cons (c : Char) (s : Text) :
    utf8Length (c :: s) = c.utf8Size + utf8Length s := rfl

@[simp] theorem utf8Length_append (s t : Text) :
    utf8Length (s ++ t) = utf8Length s + utf8Length t := by
  induction s with
  | nil => simp
  | cons c s ih => simp [ih, Nat.add_assoc]

/-- Number of UTF-16 code units of a character: two beyond the basic plane. -/
def utf16Size (c : Char) : Nat := if c.toNat < 0x10000 then 1 else 2

/-- Number of UTF-16 code units of a text. -/
def utf16Length : Text → Nat
  | [] => 0
  | c :: s => utf16Size c + utf16Length s

/-! ### Cutting at a byte offset -/

/-- The first `n` bytes of a text; `none` past the end and inside a character. -/
def takeBytes? : Text → Nat → Option Text
  | _, 0 => some []
  | [], _ + 1 => none
  | c :: s, n + 1 =>
    if c.utf8Size ≤ n + 1 then (takeBytes? s (n + 1 - c.utf8Size)).map (c :: ·) else none

/-- A text without its first `n` bytes; `none` past the end and inside a character. -/
def dropBytes? : Text → Nat → Option Text
  | s, 0 => some s
  | [], _ + 1 => none
  | c :: s, n + 1 => if c.utf8Size ≤ n + 1 then dropBytes? s (n + 1 - c.utf8Size) else none

/-- The bytes of a text from one offset up to another. -/
def slice? (s : Text) (start stop : Nat) : Option Text :=
  if start ≤ stop then (s.dropBytes? start).bind (takeBytes? · (stop - start)) else none

/-- Bytes before the character that holds UTF-16 column `k`; the whole length past the end.
    A column inside a surrogate pair belongs to the character it splits. -/
def columnOffset : Text → Nat → Nat
  | [], _ => 0
  | c :: s, k => if utf16Size c ≤ k then c.utf8Size + columnOffset s (k - utf16Size c) else 0

/-! ### Lines -/

/-- The text after the first `n` line feeds, with the number of bytes before it. -/
def dropLines? : Text → Nat → Option (Nat × Text)
  | s, 0 => some (0, s)
  | [], _ + 1 => none
  | c :: s, n + 1 =>
    (dropLines? s (if c = '\n' then n else n + 1)).map fun (before, rest) =>
      (c.utf8Size + before, rest)

/-- The text up to the first line feed. -/
def firstLine (s : Text) : Text := s.takeWhile (· ≠ '\n')

/-- Number of lines: one more than the number of line feeds. -/
def lineCount (s : Text) : Nat := s.count '\n' + 1

/-- Byte offset at which line `n` begins. -/
def lineStart? (s : Text) (n : Nat) : Option Nat := (s.dropLines? n).map (·.1)

/-- Byte offset of a line and column; `none` when there is no such line. A column past the end
    of its line means the end of the line. -/
def offsetAt? (s : Text) (line column : Nat) : Option Nat :=
  (s.dropLines? line).map fun (before, rest) => before + columnOffset (firstLine rest) column

/-- The lines of a text without their line ends, LF or CR LF. A text that ends in a line end has
    no empty last line, and a carriage return belongs to a line end only before a line feed. -/
def lines : Text → List Text
  | [] => []
  | '\n' :: s => [] :: lines s
  | '\r' :: '\n' :: s => [] :: lines s
  | c :: s =>
    match lines s with
    | [] => [[c]]
    | line :: rest => (c :: line) :: rest

/-- Lines joined by single line feeds. -/
def joinLines (lines : List Text) : Text := List.intercalate ['\n'] lines

/-! ### Blanks -/

/-- Characters with the Unicode property White_Space. -/
def isBlankChar (c : Char) : Bool :=
  let n := c.toNat
  (0x9 ≤ n && n ≤ 0xD) || n == 0x20 || n == 0x85 || n == 0xA0 || n == 0x1680 ||
    (0x2000 ≤ n && n ≤ 0x200A) || n == 0x2028 || n == 0x2029 || n == 0x202F || n == 0x205F ||
    n == 0x3000

/-- A text without the blanks at its end. -/
def trimEnd (s : Text) : Text := (s.reverse.dropWhile isBlankChar).reverse

/-- A text of blanks only. -/
def isBlank (s : Text) : Bool := s.all isBlankChar

/-- A text with blanks before it up to a width in characters. -/
def padLeft (width : Nat) (s : Text) : Text := List.replicate (width - s.length) ' ' ++ s

/-- A text with blanks behind it up to a width in characters. -/
def padRight (width : Nat) (s : Text) : Text := s ++ List.replicate (width - s.length) ' '

/-! ### Searching -/

/-- Splits a text around the first occurrence of `needle` into what precedes and what follows. -/
def cut? (needle : Text) : Text → Option (Text × Text)
  | [] => (needle.isPrefixOf? []).map ([], ·)
  | c :: s =>
    match needle.isPrefixOf? (c :: s) with
    | some after => some ([], after)
    | none => (cut? needle s).map fun (before, after) => (c :: before, after)

/-- ASCII letters in lower case, all else as it is. -/
def asciiLower (s : Text) : Text := s.map Char.toLower

end Text

end Worksheet
