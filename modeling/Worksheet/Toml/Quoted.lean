import Worksheet.Digits
import Worksheet.Toml.Reader

/-! # Quoted text

  Text stands between quotes or apostrophes, in one of each on a single line or in three of each
  over several lines. Between quotes a backslash begins an escape; between apostrophes every
  character stands for itself. A line end just after three opening marks does not count, and all
  others count as line feeds. Three marks close; one or two marks inside are part of the text, also
  right before the closing ones.
-/

namespace Worksheet.Toml

/-! ### Escapes -/

/-- The character of a code point that is written with so many digits. -/
def codePoint? (count : Nat) (s : Text) : Option (Char × Text) :=
  let digits := s.take count
  if digits.length = count then
    (Digits.number? 16 digits).bind fun n =>
      if n.isValidChar then some (Char.ofNat n, s.drop count) else none
  else none

/-- The character of an escape, behind its backslash. -/
def escape? : Text → Option (Char × Text)
  | 'b' :: s => some ('\x08', s)
  | 't' :: s => some ('\t', s)
  | 'n' :: s => some ('\n', s)
  | 'f' :: s => some ('\x0c', s)
  | 'r' :: s => some ('\r', s)
  | '"' :: s => some ('"', s)
  | '\\' :: s => some ('\\', s)
  | 'u' :: s => codePoint? 4 s
  | 'U' :: s => codePoint? 8 s
  | _ => none

/-! ### Text on one line -/

/-- Characters that stand for themselves between a kind of mark. -/
def isPlain (mark c : Char) : Bool := isCommentChar c && c ≠ mark && !(mark == '"' && c == '\\')

/-- One character between marks. -/
def quotedChar? (mark : Char) : Reader Char
  | [] => none
  | c :: s =>
    if isPlain mark c then some (c, s)
    else if mark == '"' && c == '\\' then escape? s
    else none

/-- A text between single marks of a kind. -/
def quotedLine? (mark : Char) : Reader Text := fun s => do
  let (_, s) ← Reader.expect [mark] s
  let (text, s) := Reader.many (quotedChar? mark) s
  let (_, s) ← Reader.expect [mark] s
  return (text, s)

/-! ### Text over several lines -/

/-- What follows a backslash at the end of a line: everything up to the next character that is
    neither a blank nor part of a line end. -/
def continuation? (s : Text) : Option Text := do
  let (_, rest) := Reader.many (fun s => (lineEnd? (skipBlanks s)).map ((), ·))
    (← lineEnd? (skipBlanks s))
  return skipBlanks rest

/-- A piece of text between three marks: a line end, a character, or marks that do not close. -/
def piece? (mark : Char) (s : Text) : Option (Text × Text) :=
  match lineEnd? s with
  | some rest => some (['\n'], rest)
  | none =>
    match quotedChar? mark s with
    | some (c, rest) => some ([c], rest)
    | none =>
      let (marks, rest) := s.span (· == mark)
      if marks ≠ [] then
        if marks.length < 3 then some (marks, rest) else none
      else if mark == '"' && s.head? == some '\\' then
        (continuation? (s.drop 1)).map (([] : Text), ·)
      else none

/-- A text between three marks of a kind. -/
def quotedLines? (mark : Char) : Reader Text := fun s => do
  let (_, s) ← Reader.expect [mark, mark, mark] s
  let (pieces, s) := Reader.many (piece? mark) ((lineEnd? s).getD s)
  let (marks, s) := s.span (· == mark)
  if 3 ≤ marks.length ∧ marks.length ≤ 5 then return (pieces.flatten ++ marks.drop 3, s) else none

/-- A text in any of the four forms. -/
def quoted? : Reader Text := fun s =>
  let mark := if s.head? = some '"' then '"' else '\x27'
  if (List.replicate 3 mark).isPrefixOf s then quotedLines? mark s else quotedLine? mark s

/-! ### Keys -/

def isBareKeyChar (c : Char) : Bool := c.isAlphanum || c == '_' || c == '-'

/-- A part of a key. -/
def keyPart? : Reader Text := fun s =>
  match s.head? with
  | some '"' => quotedLine? '"' s
  | some '\x27' => quotedLine? '\x27' s
  | _ =>
    match s.span isBareKeyChar with
    | ([], _) => none
    | part => some part

/-- How many parts a key may not reach. -/
def maxKeyParts : Nat := 80

/-- A key: parts with dots between them, and blanks around each part. -/
def key? : Reader (List Text) := fun s => do
  let (parts, s) ← Reader.separated
    (fun s => (keyPart? (skipBlanks s)).map fun (part, s) => (part, skipBlanks s))
    (Reader.expect ['.']) s
  if parts.length < maxKeyParts then return (parts, s) else none

end Worksheet.Toml
