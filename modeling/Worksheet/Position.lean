import Worksheet.Digits

/-! # Positions and ranges

  A position is a zero-based line and a zero-based column in UTF-16 units. A range is a span of
  bytes together with the positions of its two ends. The end of a span is exclusive, but a range
  counts the position right after its last character as its own, so that a cursor placed there
  still belongs to it.
-/

namespace Worksheet

/-! ### Positions -/

/-- A line and a column, both from zero; columns count UTF-16 units. -/
structure Position where
  line : Nat
  character : Nat
deriving DecidableEq

namespace Position

/-- The start of a text. -/
def zero : Position := ⟨0, 0⟩

/-- Positions are ordered by line, then by column. -/
instance : LE Position :=
  ⟨fun p q => p.line < q.line ∨ p.line = q.line ∧ p.character ≤ q.character⟩

instance : LT Position :=
  ⟨fun p q => p.line < q.line ∨ p.line = q.line ∧ p.character < q.character⟩

instance (p q : Position) : Decidable (p ≤ q) :=
  inferInstanceAs (Decidable (p.line < q.line ∨ p.line = q.line ∧ p.character ≤ q.character))

instance (p q : Position) : Decidable (p < q) :=
  inferInstanceAs (Decidable (p.line < q.line ∨ p.line = q.line ∧ p.character < q.character))

/-- How two positions compare. -/
def compare (p q : Position) : Ordering := if p < q then .lt else if p = q then .eq else .gt

/-- The position after one more character: a line feed begins a line. -/
def step (p : Position) (c : Char) : Position :=
  if c = '\n' then ⟨p.line + 1, 0⟩ else ⟨p.line, p.character + Text.utf16Size c⟩

/-- The position reached from `p` after a text. -/
def advance (p : Position) (s : Text) : Position := s.foldl step p

@[simp] theorem advance_nil (p : Position) : p.advance [] = p := rfl

@[simp] theorem advance_cons (p : Position) (c : Char) (s : Text) :
    p.advance (c :: s) = (p.step c).advance s := rfl

@[simp] theorem advance_append (p : Position) (s t : Text) :
    p.advance (s ++ t) = (p.advance s).advance t := by
  simp [advance]

-- Powers are written with `Nat.pow`, which means the same whichever instances are in scope.
/-- Whether line and column are numbers of 64 bits, as those of every document are. -/
def isRepresentable (p : Position) : Bool := p.line < Nat.pow 2 64 && p.character < Nat.pow 2 64

/-- A position as `line:character`. -/
def display (p : Position) : Text := decimal p.line ++ ':' :: decimal p.character

end Position

/-! ### Positions of a text -/

namespace Text

/-- The position of a byte offset. An offset past the end means the end; one inside a character
    has no position. -/
def positionAt? (s : Text) (offset : Nat) : Option Position :=
  (s.takeBytes? (min offset s.utf8Length)).map Position.zero.advance

/-- The byte offset of a position, `none` when its line does not exist. -/
def byteAt? (s : Text) (p : Position) : Option Nat := s.offsetAt? p.line p.character

end Text

/-! ### Ranges -/

/-- A half-open span of byte offsets. -/
structure Span where
  start : Nat
  stop : Nat
deriving DecidableEq

/-- A span with the positions of its ends. -/
structure Range where
  span : Span
  start : Position
  stop : Position
deriving DecidableEq

namespace Range

/-- The empty range at the start of a text. -/
def empty : Range := ⟨⟨0, 0⟩, .zero, .zero⟩

/-- Both ends belong to the range. -/
def contains (r : Range) (p : Position) : Bool := r.start ≤ p && p ≤ r.stop

/-- The end does not belong to the range. -/
def containsHalfOpen (r : Range) (p : Position) : Bool := r.start ≤ p && p < r.stop

/-- One of the two ranges contains an end of the other. -/
def overlaps (r t : Range) : Bool :=
  r.contains t.start || r.contains t.stop || t.contains r.start || t.contains r.stop

def isEmpty (r : Range) : Bool := r.span.start == r.span.stop

/-- A range as `start..end`. -/
def display (r : Range) : Text := r.start.display ++ '.' :: '.' :: r.stop.display

end Range

namespace Text

/-- The range of a span; the span is kept as given, also past the end of the text. -/
def rangeOf? (s : Text) (span : Span) : Option Range := do
  let start ← s.positionAt? span.start
  let stop ← s.positionAt? span.stop
  return ⟨span, start, stop⟩

/-- Byte offset into `content` of the position `p` of the document, where `range` is the range of
    the content. Only the first line of a content can begin in the middle of a line. -/
def offsetIn? (content : Text) (range : Range) (p : Position) : Option Nat :=
  if range.contains p then
    let line := p.line - range.start.line
    if line = 0 then
      if range.start.character ≤ p.character then
        content.offsetAt? 0 (p.character - range.start.character)
      else none
    else content.offsetAt? line p.character
  else none

/-- Position in the document of byte `offset` of `content`, where `range` is the range of the
    content. -/
def positionIn? (content : Text) (range : Range) (offset : Nat) : Option Position :=
  (content.takeBytes? offset).map range.start.advance

end Text

end Worksheet
