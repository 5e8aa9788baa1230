import Worksheet.Json.Basic

/-! # Reading JSON

  A text is cut into tokens, and the tokens are fed one by one to a machine that keeps the arrays
  and objects that are still open on a stack. There is no limit on how deep a text nests.
-/

namespace Worksheet

namespace Json

/-! ### Tokens -/

/-- What JSON is made of, blanks apart. -/
inductive Token where
  | openList
  | closeList
  | openObject
  | closeObject
  | comma
  | colon
  | string (value : Option Text)
  /-- A value that is one token, strings apart. -/
  | scalar (value : Json)

/-! ### Strings -/

/-- The text up to the next quote that no backslash precedes, and what follows the quote. -/
def splitQuoted? : Text → Option (Text × Text)
  | [] => none
  | '"' :: s => some ([], s)
  | '\\' :: c :: s => (splitQuoted? s).map fun (raw, rest) => ('\\' :: c :: raw, rest)
  | c :: s => (splitQuoted? s).map fun (raw, rest) => (c :: raw, rest)

theorem length_splitQuoted?_lt {s raw rest : Text} (h : splitQuoted? s = some (raw, rest)) :
    rest.length < s.length := by
  fun_induction splitQuoted? s generalizing raw with
  | case1 => simp at h
  | case2 s => cases h; simp
  | case3 c s ih =>
    obtain ⟨⟨r, t⟩, hr, he⟩ := Option.map_eq_some_iff.1 h
    cases he
    have := ih hr
    simp only [List.length_cons]
    omega
  | case4 c s _ _ ih =>
    obtain ⟨⟨r, t⟩, hr, he⟩ := Option.map_eq_some_iff.1 h
    cases he
    have := ih hr
    simp only [List.length_cons]
    omega

/-- What a letter behind a backslash stands for, `u` apart. -/
def escaped? : Char → Option Char
  | '"' => some '"'
  | '\\' => some '\\'
  | '/' => some '/'
  | 'b' => some '\x08'
  | 'f' => some '\x0c'
  | 'n' => some '\n'
  | 'r' => some '\r'
  | 't' => some '\t'
  | _ => none

/-- The code points of a string between its quotes, where each half of a surrogate pair counts as
    one; `none` for a control character or an escape that does not exist. -/
def codePoints? : Text → Option (List Nat)
  | [] => some []
  | '\\' :: 'u' :: a :: b :: c :: d :: s => do return (← Digits.number? 16 [a, b, c, d]) :: (← codePoints? s)
  | '\\' :: c :: s => do return (← escaped? c).toNat :: (← codePoints? s)
  | c :: s => if c.toNat < 0x20 ∨ c = '\\' then none else (codePoints? s).map (c.toNat :: ·)

/-- Joins the halves of surrogate pairs; `none` if one is left alone. -/
def joinSurrogates? : List Nat → Option Text
  | [] => some []
  | [n] => if 0xD800 ≤ n ∧ n ≤ 0xDFFF then none else some [Char.ofNat n]
  | n :: m :: rest =>
    if 0xD800 ≤ n ∧ n ≤ 0xDBFF then
      if 0xDC00 ≤ m ∧ m ≤ 0xDFFF then
        (joinSurrogates? rest).map
          (Char.ofNat (0x10000 + (n - 0xD800) * 0x400 + (m - 0xDC00)) :: ·)
      else none
    else if 0xDC00 ≤ n ∧ n ≤ 0xDFFF then none
    else (joinSurrogates? (m :: rest)).map (Char.ofNat n :: ·)

/-! ### Numbers and words -/

/-- Whether a text is an exponent or empty. -/
def isExponent : Text → Bool
  | [] => true
  | e :: s =>
    let digits := match s with
      | '+' :: s => s
      | '-' :: s => s
      | s => s
    (e = 'e' || e = 'E') && !digits.isEmpty && digits.all Char.isDigit

/-- Whether a text is an exponent, a fraction, both or empty: what may follow the integer. -/
def isNumberTail (s : Text) : Bool :=
  match s with
  | '.' :: s => !(s.takeWhile Char.isDigit).isEmpty && isExponent (s.dropWhile Char.isDigit)
  | s => isExponent s

/-- The value of a number. An integer has no leading zeros. -/
def number? (literal : Text) : Option Json :=
  let magnitude := match literal with
    | '-' :: s => s
    | s => s
  let digits := magnitude.takeWhile Char.isDigit
  let tail := magnitude.dropWhile Char.isDigit
  if digits.isEmpty || (digits.head? = some '0' && digits.length ≠ 1) || !isNumberTail tail then none
  else if literal = digits then (Digits.number? 10 digits).map .nat
  else some (.real literal)

/-- Characters that a number can hold. -/
def isNumberChar (c : Char) : Bool := c.isDigit || "+-.eE".toList.contains c

/-- The value of a word. -/
def word? (word : Text) : Option Json :=
  if word = "null".toList then some .null
  else if word = "true".toList then some (.bool true)
  else if word = "false".toList then some (.bool false)
  else none

/-! ### Cutting into tokens -/

def isBlankChar (c : Char) : Bool := c = ' ' || c = '\n' || c = '\t' || c = '\r'

def punctuation? : Char → Option Token
  | '[' => some .openList
  | ']' => some .closeList
  | '{' => some .openObject
  | '}' => some .closeObject
  | ',' => some .comma
  | ':' => some .colon
  | _ => none

/-- The tokens of a text, `none` where it has none. -/
def tokens? : Text → Option (List Token)
  | [] => some []
  | c :: s =>
    if isBlankChar c then tokens? s
    else
      match punctuation? c with
      | some token => (tokens? s).map (token :: ·)
      | none =>
        if c = '"' then
          match _h : splitQuoted? s with
          | none => none
          | some (raw, rest) => do
            let points ← codePoints? raw
            let tokens ← tokens? rest
            return .string (joinSurrogates? points) :: tokens
        else if c.isAlpha then do
          let value ← word? (c :: s.takeWhile Char.isAlpha)
          let tokens ← tokens? (s.dropWhile Char.isAlpha)
          return .scalar value :: tokens
        else do
          let value ← number? (c :: s.takeWhile isNumberChar)
          let tokens ← tokens? (s.dropWhile isNumberChar)
          return .scalar value :: tokens
termination_by s => s.length
decreasing_by
  · simp
  · simp
  · have := length_splitQuoted?_lt _h
    simp only [List.length_cons]
    omega
  · have := (List.dropWhile_suffix (l := s) Char.isAlpha).length_le
    simp only [List.length_cons]
    omega
  · have := (List.dropWhile_suffix (l := s) isNumberChar).length_le
    simp only [List.length_cons]
    omega

/-! ### The machine -/

/-- An array or object around the value that is being read; the latest part first. -/
inductive Frame where
  | list (items : List Json)
  | object (fields : List (Option Text × Json)) (key : Option Text)

/-- What may come next. -/
inductive ReaderState where
  | value (outer : List Frame)
  /-- The first item of an array, or its end. -/
  | firstItem (outer : List Frame)
  /-- A comma or the end of an array. -/
  | afterItem (items : List Json) (outer : List Frame)
  /-- The first key of an object, or its end. -/
  | firstKey (outer : List Frame)
  | key (fields : List (Option Text × Json)) (outer : List Frame)
  | colon (fields : List (Option Text × Json)) (key : Option Text) (outer : List Frame)
  /-- A comma or the end of an object. -/
  | afterField (fields : List (Option Text × Json)) (outer : List Frame)
  /-- Nothing: the value is complete. -/
  | done (value : Json)

/-- Puts a complete value where it belongs. -/
def complete (v : Json) : List Frame → ReaderState
  | [] => .done v
  | .list items :: outer => .afterItem (v :: items) outer
  | .object fields key :: outer => .afterField ((key, v) :: fields) outer

/-- Begins a value. -/
def begin? (outer : List Frame) : Token → Option ReaderState
  | .openList => some (.firstItem outer)
  | .openObject => some (.firstKey outer)
  | .string s => some (complete (.str s) outer)
  | .scalar v => some (complete v outer)
  | .closeList | .closeObject | .comma | .colon => none

/-- Takes the next token. -/
def step? : ReaderState → Token → Option ReaderState
  | .value outer, t => begin? outer t
  | .firstItem outer, .closeList => some (complete (.arr []) outer)
  | .firstItem outer, t => begin? (.list [] :: outer) t
  | .afterItem items outer, .comma => some (.value (.list items :: outer))
  | .afterItem items outer, .closeList => some (complete (.arr items.reverse) outer)
  | .firstKey outer, .closeObject => some (complete (.obj []) outer)
  | .firstKey outer, .string key => some (.colon [] key outer)
  | .key fields outer, .string key => some (.colon fields key outer)
  | .colon fields key outer, .colon => some (.value (.object fields key :: outer))
  | .afterField fields outer, .comma => some (.key fields outer)
  | .afterField fields outer, .closeObject => some (complete (.obj fields.reverse) outer)
  | _, _ => none

/-- Reads a text that is one JSON value. -/
def parse? (s : Text) : Option Json := do
  match ← (← tokens? s).foldlM step? (.value []) with
  | .done v => some v
  | _ => none

end Json

end Worksheet
