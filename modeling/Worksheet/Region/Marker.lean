import Worksheet.Text

/-! # Markers

  A marker is a short text that begins or ends a region. Most are fixed; some leave room for blanks,
  for either form of line end, or for a title. A marker is tried at one place of a text, and its
  lexeme, the marker as it is written there, always is a front part of the text
  (`Marker.eq_append_of_matchAt?`) and never empty (`Marker.lexeme_ne_nil`).
-/

namespace Worksheet

/-- A marker at the front of a text. -/
structure Match where
  /-- The marker as written. -/
  lexeme : Text
  /-- The title in it, empty if it has none. -/
  title : Text
  /-- What follows it. -/
  rest : Text
deriving DecidableEq

/-- The shapes of marker. -/
inductive Marker where
  /-- A fixed text. -/
  | literal (text : Text)
  /-- The opening, then perhaps ` : ` and a title on the same line, then the closing. The title
      ends where the closing first follows. -/
  | details (opening closing : Text)
  /-- The tag `<hint>`, perhaps with an attribute `title` in double quotes and with blanks. -/
  | hintTag
  /-- The line that opens a fenced block, with the line end before it if there is one. -/
  | fenceOpening
  /-- The line end and fence that close a block, with the line end after it if there is one. -/
  | fenceClosing
deriving DecidableEq

namespace Marker

/-! ### Pieces of markers -/

/-- The front of a text up to the first place where `stop` follows, and what is behind `stop`; only
    within the line. -/
def upTo? (stop : Text) : Text → Option (Text × Text)
  | [] => (stop.isPrefixOf? []).map ([], ·)
  | c :: s =>
    match stop.isPrefixOf? (c :: s) with
    | some rest => some ([], rest)
    | none =>
      if c = '\r' ∨ c = '\n' then none
      else (upTo? stop s).map fun (title, rest) => (c :: title, rest)

/-- The character at the front if it is `c`. -/
def optional (c : Char) : Text → Text
  | [] => []
  | x :: _ => if x = c then [c] else []

/-- The line end at the front, if there is one. -/
def lineEnd : Text → Text
  | '\n' :: _ => ['\n']
  | '\r' :: '\n' :: _ => ['\r', '\n']
  | _ => []

/-- A title attribute: blanks, `title=`, and a text in double quotes. Answers what it consists of,
    the title and what follows. -/
def titleAttribute? (s : Text) : Option (Text × Text × Text) :=
  let blanks := s.takeWhile Text.isBlankChar
  if blanks = [] then none
  else
    match "title=\"".toList.isPrefixOf? (s.dropWhile Text.isBlankChar) with
    | none => none
    | some quoted =>
      let title := quoted.takeWhile (· ≠ '"')
      match quoted.dropWhile (· ≠ '"') with
      | [] => none
      | quote :: rest => some (blanks ++ "title=\"".toList ++ title ++ [quote], title, rest)

/-! ### Matching -/

/-- Tries the markers of a section that may have a title. -/
def scanDetails? (opening closing s : Text) : Option Match :=
  match opening.isPrefixOf? s with
  | none => none
  | some s =>
    match " : ".toList.isPrefixOf? s with
    | some s =>
      (upTo? closing s).map fun (title, rest) =>
        ⟨opening ++ " : ".toList ++ title ++ closing, title, rest⟩
    | none => (closing.isPrefixOf? s).map fun rest => ⟨opening ++ closing, [], rest⟩

/-- Tries the tag of a hint. -/
def scanHintTag? (s : Text) : Option Match :=
  match "<hint".toList.isPrefixOf? s with
  | none => none
  | some s =>
    let (written, title, s) := (titleAttribute? s).getD ([], [], s)
    let blanks := s.takeWhile Text.isBlankChar
    (['>'].isPrefixOf? (s.dropWhile Text.isBlankChar)).map fun rest =>
      ⟨"<hint".toList ++ written ++ blanks ++ ['>'], title, rest⟩

/-- Blanks that may stand behind the word that opens a fence. -/
def isGapChar (c : Char) : Bool := c = ' ' ∨ c = '\t'

/-- Tries the line that opens a fence. -/
def scanFenceOpening? (s : Text) : Option Match :=
  let cr := optional '\r' s
  let s := s.drop cr.length
  let lf := optional '\n' s
  match "```coq".toList.isPrefixOf? (s.drop lf.length) with
  | none => none
  | some s =>
    let gap := s.takeWhile isGapChar
    let s := s.dropWhile isGapChar
    let stop := lineEnd s
    if stop = [] then none
    else some ⟨cr ++ lf ++ "```coq".toList ++ gap ++ stop, [], s.drop stop.length⟩

/-- Tries the line that closes a fence. -/
def scanFenceClosing? (s : Text) : Option Match :=
  let front := lineEnd s
  if front = [] then none
  else
    ("```".toList.isPrefixOf? (s.drop front.length)).map fun s =>
      ⟨front ++ "```".toList ++ lineEnd s, [], s.drop (lineEnd s).length⟩

/-- Tries a marker at the front of a text. -/
def scan? : Marker → Text → Option Match
  | literal text, s => (text.isPrefixOf? s).map fun rest => ⟨text, [], rest⟩
  | details opening closing, s => scanDetails? opening closing s
  | hintTag, s => scanHintTag? s
  | fenceOpening, s => scanFenceOpening? s
  | fenceClosing, s => scanFenceClosing? s

/-- A marker at the front of a text. A match that consists of nothing does not count. -/
def matchAt? (m : Marker) (s : Text) : Option Match := (m.scan? s).filter (·.lexeme ≠ [])

/-- The first place where a marker is found: what precedes it, and the match. -/
def find? (m : Marker) : Text → Option (Text × Match)
  | [] => none
  | c :: s =>
    match m.matchAt? (c :: s) with
    | some found => some ([], found)
    | none => (find? m s).map fun (before, found) => (c :: before, found)

/-! ### What a match consists of -/

theorem eq_append_of_isPrefixOf? {p s rest : Text} (h : p.isPrefixOf? s = some rest) :
    s = p ++ rest := by
  induction p generalizing s with
  | nil => exact Option.some.inj h
  | cons c p ih =>
    cases s with
    | nil => cases h
    | cons x s =>
      change (if c == x then p.isPrefixOf? s else none) = some rest at h
      split at h
      · next hc => rw [ih h, eq_of_beq hc, List.cons_append]
      · cases h

theorem eq_append_of_upTo? {stop s title rest : Text} (h : upTo? stop s = some (title, rest)) :
    s = title ++ stop ++ rest := by
  induction s generalizing title with
  | nil =>
    obtain ⟨r, hr, he⟩ := Option.map_eq_some_iff.1 h
    cases he
    simpa using eq_append_of_isPrefixOf? hr
  | cons c s ih =>
    simp only [upTo?] at h
    split at h
    · next hr =>
      cases h
      simpa using eq_append_of_isPrefixOf? hr
    · split at h
      · simp at h
      · obtain ⟨⟨t, r⟩, hr, he⟩ := Option.map_eq_some_iff.1 h
        cases he
        simp [ih hr]

theorem optional_append_drop (c : Char) (s : Text) :
    optional c s ++ s.drop (optional c s).length = s := by
  cases s with
  | nil => rfl
  | cons x s =>
    simp only [optional]
    split
    · next h => simp [h]
    · rfl

theorem lineEnd_append_drop (s : Text) : lineEnd s ++ s.drop (lineEnd s).length = s := by
  unfold lineEnd
  split <;> simp

theorem eq_append_of_titleAttribute? {s written title rest : Text}
    (h : titleAttribute? s = some (written, title, rest)) : s = written ++ rest := by
  simp only [titleAttribute?] at h
  split at h
  · simp at h
  · split at h
    · simp at h
    · next quoted hq =>
      split at h
      · simp at h
      · next quote r hr =>
        cases h
        have hquoted := List.takeWhile_append_dropWhile (p := (· ≠ '"')) (l := quoted)
        rw [hr] at hquoted
        simp only [List.append_assoc, List.singleton_append, hquoted]
        rw [← eq_append_of_isPrefixOf? hq, List.takeWhile_append_dropWhile]

theorem eq_append_of_scanDetails? {opening closing s : Text} {found : Match}
    (h : scanDetails? opening closing s = some found) : s = found.lexeme ++ found.rest := by
  simp only [scanDetails?] at h
  split at h
  · simp at h
  · next s₁ h₁ =>
    split at h
    · next s₂ h₂ =>
      obtain ⟨⟨title, rest⟩, h₃, rfl⟩ := Option.map_eq_some_iff.1 h
      simp [eq_append_of_isPrefixOf? h₁, eq_append_of_isPrefixOf? h₂, eq_append_of_upTo? h₃]
    · obtain ⟨rest, h₃, rfl⟩ := Option.map_eq_some_iff.1 h
      simp [eq_append_of_isPrefixOf? h₁, eq_append_of_isPrefixOf? h₃]

theorem eq_append_of_scanHintTag? {s : Text} {found : Match} (h : scanHintTag? s = some found) :
    s = found.lexeme ++ found.rest := by
  simp only [scanHintTag?] at h
  split at h
  · simp at h
  · next s₁ h₁ =>
    obtain ⟨rest, h₂, rfl⟩ := Option.map_eq_some_iff.1 h
    have h₃ := eq_append_of_isPrefixOf? h₂
    have h₄ := List.takeWhile_append_dropWhile (p := Text.isBlankChar)
      (l := ((titleAttribute? s₁).getD ([], [], s₁)).2.2)
    rw [h₃] at h₄
    have h₅ : s₁ = ((titleAttribute? s₁).getD ([], [], s₁)).1 ++
        ((titleAttribute? s₁).getD ([], [], s₁)).2.2 := by
      cases ht : titleAttribute? s₁ with
      | none => rfl
      | some t => exact eq_append_of_titleAttribute? ht
    rw [eq_append_of_isPrefixOf? h₁]
    simp only [List.append_assoc, List.append_cancel_left_eq]
    conv => lhs; rw [h₅, ← h₄]

theorem eq_append_of_scanFenceOpening? {s : Text} {found : Match}
    (h : scanFenceOpening? s = some found) : s = found.lexeme ++ found.rest := by
  simp only [scanFenceOpening?] at h
  split at h
  · simp at h
  · next s₁ h₁ =>
    split at h
    · simp at h
    · cases h
      have h₂ := List.takeWhile_append_dropWhile (p := isGapChar) (l := s₁)
      rw [← lineEnd_append_drop (s₁.dropWhile isGapChar)] at h₂
      have h₃ := optional_append_drop '\n' (s.drop (optional '\r' s).length)
      rw [eq_append_of_isPrefixOf? h₁, ← h₂] at h₃
      have h₄ := optional_append_drop '\r' s
      rw [← h₃] at h₄
      simpa using h₄.symm

theorem eq_append_of_scanFenceClosing? {s : Text} {found : Match}
    (h : scanFenceClosing? s = some found) : s = found.lexeme ++ found.rest := by
  simp only [scanFenceClosing?] at h
  split at h
  · simp at h
  · obtain ⟨s₁, h₁, rfl⟩ := Option.map_eq_some_iff.1 h
    have h₂ := lineEnd_append_drop s
    rw [eq_append_of_isPrefixOf? h₁, ← lineEnd_append_drop s₁] at h₂
    simpa using h₂.symm

/-- A match is a front part of the text and what follows it. -/
theorem eq_append_of_matchAt? {m : Marker} {s : Text} {found : Match}
    (h : m.matchAt? s = some found) : s = found.lexeme ++ found.rest := by
  replace h := (Option.filter_eq_some_iff.1 h).1
  cases m with
  | literal text =>
    obtain ⟨rest, h₁, rfl⟩ := Option.map_eq_some_iff.1 h
    exact eq_append_of_isPrefixOf? h₁
  | details opening closing => exact eq_append_of_scanDetails? h
  | hintTag => exact eq_append_of_scanHintTag? h
  | fenceOpening => exact eq_append_of_scanFenceOpening? h
  | fenceClosing => exact eq_append_of_scanFenceClosing? h

theorem lexeme_ne_nil {m : Marker} {s : Text} {found : Match} (h : m.matchAt? s = some found) :
    found.lexeme ≠ [] := by
  simpa using (Option.filter_eq_some_iff.1 h).2

theorem length_rest_lt {m : Marker} {s : Text} {found : Match} (h : m.matchAt? s = some found) :
    found.rest.length < s.length := by
  have := List.length_pos_iff.2 (lexeme_ne_nil h)
  rw [eq_append_of_matchAt? h, List.length_append]
  omega

/-- The first match, and what precedes it, make up the text. -/
theorem eq_append_of_find? {m : Marker} {s before : Text} {found : Match}
    (h : m.find? s = some (before, found)) : s = before ++ found.lexeme ++ found.rest := by
  induction s generalizing before with
  | nil => simp [find?] at h
  | cons c s ih =>
    simp only [find?] at h
    split at h
    · next hm =>
      cases h
      exact eq_append_of_matchAt? hm
    · obtain ⟨⟨b, f⟩, hf, he⟩ := Option.map_eq_some_iff.1 h
      cases he
      simpa using ih hf

end Marker

end Worksheet
