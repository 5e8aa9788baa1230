import Worksheet.Text

/-! # Readers

  A reader takes what it reads off the front of a text. Repetition ends when a reader fails or takes
  nothing, so that it always ends.
-/

namespace Worksheet.Toml

/-- Reads a value off the front of a text, if one is there. -/
abbrev Reader (α : Type) := Text → Option (α × Text)

namespace Reader

variable {α β : Type}

/-- Reads the given characters. -/
def expect (token : Text) : Reader Unit := fun s => (token.isPrefixOf? s).map ((), ·)

/-- Reads one character of a kind. -/
def char (test : Char → Bool) : Reader Char
  | [] => none
  | c :: s => if test c then some (c, s) else none

/-- Reads as often as it can be. -/
def many (p : Reader α) (s : Text) : List α × Text :=
  match p s with
  | none => ([], s)
  | some (a, rest) =>
    if rest.length < s.length then
      let (others, rest) := many p rest
      (a :: others, rest)
    else ([a], rest)
termination_by s.length

/-- Reads one value after another, with separators between them. A separator that no value follows
    is left alone. -/
def separated (p : Reader α) (separator : Reader Unit) : Reader (List α) := fun s => do
  let (first, rest) ← p s
  let (others, rest) := many (fun s => do p (← separator s).2) rest
  return (first :: others, rest)

/-- Reads the whole of a text. -/
def all (p : Reader α) (s : Text) : Option α :=
  match p s with
  | some (a, []) => some a
  | _ => none

end Reader

/-! ### Blanks -/

def isBlank (c : Char) : Bool := c == ' ' || c == '\t'

def skipBlanks (s : Text) : Text := s.dropWhile isBlank

/-- Characters of comments: no control character but the tab. -/
def isCommentChar (c : Char) : Bool := (0x20 ≤ c.toNat && c.toNat ≠ 0x7F) || c == '\t'

/-- Reads a line end, LF or CR LF. -/
def lineEnd? : Text → Option Text
  | '\n' :: s => some s
  | '\r' :: '\n' :: s => some s
  | _ => none

/-- Skips blanks and a comment. -/
def skipComment (s : Text) : Text :=
  match skipBlanks s with
  | '#' :: rest => rest.dropWhile isCommentChar
  | rest => rest

/-- Skips blanks, comments and line ends. A comment has to be ended by a line end. -/
def skipLines (s : Text) : Text :=
  match lineEnd? (skipComment s) with
  | some rest => if rest.length < s.length then skipLines rest else rest
  | none => skipBlanks s
termination_by s.length

end Worksheet.Toml
