import Mathlib.Data.List.Basic
import Worksheet.Region.Segment

/-! # Patterns

  A pattern is a regular expression with at most one group that captures a title. At one place of a
  text it can match in several ways, and these are ordered: of a choice the first branch counts
  before the second, a greedy repetition counts a longer run before a shorter one, and a lazy
  repetition a shorter run before a longer one. A search answers the first way there is
  (`Pattern.first?`).

  Every marker stands for a pattern, and what the marker finds at a place is the first match of its
  pattern there (`Marker.matchAt?_eq_first?`). The lexemes that match at all are those of the
  pattern's language (`Pattern.mem_ways_iff`).
-/

namespace Worksheet

/-! ### Patterns and their matches -/

/-- A regular expression. -/
inductive Pattern where
  /-- A fixed text. -/
  | literal (text : Text)
  /-- One character of a class. -/
  | one (allowed : Char → Bool)
  /-- A run of characters of a class, the longer the better. -/
  | greedy (allowed : Char → Bool)
  /-- A run of characters of a class, the shorter the better. -/
  | lazy (allowed : Char → Bool)
  /-- A group that captures what it matches. -/
  | capture (p : Pattern)
  /-- One pattern and then another. -/
  | andThen (p q : Pattern)
  /-- A pattern, or else nothing. -/
  | perhaps (p : Pattern)

/-- The match of a pattern behind that of another; at most one of them has a title. -/
def Match.behind (m n : Match) : Match := ⟨m.lexeme ++ n.lexeme, m.title ++ n.title, n.rest⟩

/-- The match of nothing. -/
def Match.empty (s : Text) : Match := ⟨[], [], s⟩

namespace Pattern

/-- All runs of characters of a class at the front of a text, the longest first. -/
def runs (allowed : Char → Bool) : Text → List Match
  | [] => [.empty []]
  | c :: s =>
    if allowed c then (runs allowed s).map (Match.behind ⟨[c], [], s⟩) ++ [.empty (c :: s)]
    else [.empty (c :: s)]

/-- All ways in which a pattern matches at the front of a text, in the order in which they count. -/
def ways : Pattern → Text → List Match
  | literal text, s => ((text.isPrefixOf? s).map fun rest => ⟨text, [], rest⟩).toList
  | one _, [] => []
  | one allowed, c :: s => if allowed c then [⟨[c], [], s⟩] else []
  | greedy allowed, s => runs allowed s
  | lazy allowed, s => (runs allowed s).reverse
  | capture p, s => (p.ways s).map fun m => { m with title := m.lexeme }
  | andThen p q, s => (p.ways s).flatMap fun m => (q.ways m.rest).map m.behind
  | perhaps p, s => p.ways s ++ [.empty s]

/-- The match of a pattern that counts at the front of a text. -/
def first? (p : Pattern) (s : Text) : Option Match := (p.ways s).head?

/-! ### The language of a pattern -/

/-- The lexemes of a pattern with their titles. -/
def Denotes : Pattern → Text → Text → Prop
  | literal text, lexeme, title => lexeme = text ∧ title = []
  | one allowed, lexeme, title => (∃ c, allowed c = true ∧ lexeme = [c]) ∧ title = []
  | greedy allowed, lexeme, title | lazy allowed, lexeme, title =>
      (∀ c ∈ lexeme, allowed c = true) ∧ title = []
  | capture p, lexeme, title => (∃ inner, p.Denotes lexeme inner) ∧ title = lexeme
  | andThen p q, lexeme, title => ∃ l₁ l₂ t₁ t₂, lexeme = l₁ ++ l₂ ∧ title = t₁ ++ t₂ ∧
      p.Denotes l₁ t₁ ∧ q.Denotes l₂ t₂
  | perhaps p, lexeme, title => p.Denotes lexeme title ∨ lexeme = [] ∧ title = []

/-- The patterns that match nothing at all. -/
def nullable : Pattern → Bool
  | literal text => text.isEmpty
  | one _ => false
  | greedy _ | lazy _ | perhaps _ => true
  | capture p => p.nullable
  | andThen p q => p.nullable && q.nullable

theorem lexeme_append_rest_of_mem_runs {allowed : Char → Bool} {s : Text} {m : Match}
    (h : m ∈ runs allowed s) :
    s = m.lexeme ++ m.rest ∧ (∀ c ∈ m.lexeme, allowed c = true) ∧ m.title = [] := by
  induction s generalizing m with
  | nil =>
    obtain rfl := List.mem_singleton.1 h
    exact ⟨rfl, nofun, rfl⟩
  | cons c s ih =>
    unfold runs at h
    by_cases hc : allowed c = true
    · rw [if_pos hc] at h
      rcases List.mem_append.1 h with h | h
      · obtain ⟨n, hn, rfl⟩ := List.mem_map.1 h
        obtain ⟨hs, hall, htitle⟩ := ih hn
        exact ⟨congrArg (c :: ·) hs, List.forall_mem_cons.2 ⟨hc, hall⟩, htitle⟩
      · obtain rfl := List.mem_singleton.1 h
        exact ⟨rfl, nofun, rfl⟩
    · rw [if_neg hc] at h
      obtain rfl := List.mem_singleton.1 h
      exact ⟨rfl, nofun, rfl⟩

theorem mem_runs_append {allowed : Char → Bool} {lexeme : Text} (rest : Text)
    (h : ∀ c ∈ lexeme, allowed c = true) :
    (⟨lexeme, [], rest⟩ : Match) ∈ runs allowed (lexeme ++ rest) := by
  induction lexeme with
  | nil =>
    cases rest with
    | nil => exact List.mem_singleton.2 rfl
    | cons c s =>
      show _ ∈ runs allowed (c :: s)
      unfold runs
      split
      · exact List.mem_append_right _ (List.mem_singleton.2 rfl)
      · exact List.mem_singleton.2 rfl
  | cons c lexeme ih =>
    obtain ⟨hc, hall⟩ := List.forall_mem_cons.1 h
    show _ ∈ runs allowed (c :: (lexeme ++ rest))
    unfold runs
    rw [if_pos hc]
    exact List.mem_append_left _ (List.mem_map.2 ⟨_, ih hall, rfl⟩)

/-- The runs at the front of a text are its front parts that consist of characters of the class. -/
theorem mem_runs_iff {allowed : Char → Bool} {s : Text} {m : Match} :
    m ∈ runs allowed s ↔
      s = m.lexeme ++ m.rest ∧ (∀ c ∈ m.lexeme, allowed c = true) ∧ m.title = [] := by
  refine ⟨lexeme_append_rest_of_mem_runs, ?_⟩
  rintro ⟨hs, hall, htitle⟩
  obtain ⟨lexeme, title, rest⟩ := m
  obtain rfl := hs
  obtain rfl := htitle
  exact mem_runs_append rest hall

/-- The ways in which a pattern matches are the front parts of the text that it denotes. -/
theorem mem_ways_iff {p : Pattern} {s : Text} {m : Match} :
    m ∈ p.ways s ↔ s = m.lexeme ++ m.rest ∧ p.Denotes m.lexeme m.title := by
  induction p generalizing s m with
  | literal text =>
    unfold ways Denotes
    rw [Option.mem_toList, Option.map_eq_some_iff]
    constructor
    · rintro ⟨rest, hrest, rfl⟩
      exact ⟨Marker.eq_append_of_isPrefixOf? hrest, rfl, rfl⟩
    · obtain ⟨lexeme, title, rest⟩ := m
      rintro ⟨rfl, rfl, rfl⟩
      exact ⟨rest, List.isPrefixOf?_eq_some_iff_append_eq.2 rfl, rfl⟩
  | one allowed =>
    cases s with
    | nil =>
      refine ⟨nofun, ?_⟩
      rintro ⟨hs, ⟨c, -, hc⟩, -⟩
      rw [hc] at hs
      exact nomatch hs
    | cons c s =>
      unfold ways Denotes
      constructor
      · intro h
        split at h
        · next hc =>
          obtain rfl := List.mem_singleton.1 h
          exact ⟨rfl, ⟨c, hc, rfl⟩, rfl⟩
        · exact nomatch h
      · obtain ⟨lexeme, title, rest⟩ := m
        rintro ⟨hs, ⟨x, hx, rfl⟩, rfl⟩
        obtain ⟨rfl, rfl⟩ := List.cons.inj hs
        rw [if_pos hx]
        exact List.mem_singleton.2 rfl
  | greedy allowed => exact mem_runs_iff
  | lazy allowed => exact List.mem_reverse.trans mem_runs_iff
  | capture p ih =>
    unfold ways Denotes
    rw [List.mem_map]
    constructor
    · rintro ⟨n, hn, rfl⟩
      obtain ⟨hs, hp⟩ := ih.1 hn
      exact ⟨hs, ⟨n.title, hp⟩, rfl⟩
    · obtain ⟨lexeme, title, rest⟩ := m
      rintro ⟨hs, ⟨inner, hp⟩, htitle⟩
      obtain rfl : title = lexeme := htitle
      exact ⟨⟨title, inner, rest⟩, ih.2 ⟨hs, hp⟩, rfl⟩
  | andThen p q ihp ihq =>
    unfold ways Denotes
    rw [List.mem_flatMap]
    constructor
    · rintro ⟨m₁, h₁, h⟩
      obtain ⟨m₂, h₂, rfl⟩ := List.mem_map.1 h
      obtain ⟨hs₁, hp⟩ := ihp.1 h₁
      obtain ⟨hs₂, hq⟩ := ihq.1 h₂
      refine ⟨?_, _, _, _, _, rfl, rfl, hp, hq⟩
      rw [hs₁, hs₂]
      exact (List.append_assoc _ _ _).symm
    · rintro ⟨hs, l₁, l₂, t₁, t₂, hlexeme, htitle, hp, hq⟩
      refine ⟨⟨l₁, t₁, l₂ ++ m.rest⟩, ihp.2 ⟨?_, hp⟩, List.mem_map.2 ⟨⟨l₂, t₂, m.rest⟩,
        ihq.2 ⟨rfl, hq⟩, ?_⟩⟩
      · rw [hs, hlexeme, List.append_assoc]
      · unfold Match.behind
        rw [← hlexeme, ← htitle]
  | perhaps p ih =>
    unfold ways Denotes
    rw [List.mem_append, List.mem_singleton, ih]
    constructor
    · rintro (⟨hs, hp⟩ | rfl)
      · exact ⟨hs, .inl hp⟩
      · exact ⟨rfl, .inr ⟨rfl, rfl⟩⟩
    · rintro ⟨hs, hp | ⟨hlexeme, htitle⟩⟩
      · exact .inl ⟨hs, hp⟩
      · obtain ⟨lexeme, title, rest⟩ := m
        obtain rfl := hlexeme
        obtain rfl := htitle
        obtain rfl := hs
        exact .inr rfl

theorem nullable_of_denotes_nil {p : Pattern} {title : Text} (h : p.Denotes [] title) :
    p.nullable = true := by
  induction p generalizing title with
  | literal text =>
    rw [← h.1]
    rfl
  | one allowed =>
    obtain ⟨⟨c, -, hc⟩, -⟩ := h
    exact nomatch hc
  | greedy allowed | lazy allowed | perhaps p => rfl
  | capture p ih =>
    obtain ⟨⟨inner, hp⟩, -⟩ := h
    exact ih hp
  | andThen p q ihp ihq =>
    obtain ⟨l₁, l₂, t₁, t₂, hl, -, hp, hq⟩ := h
    obtain ⟨rfl, rfl⟩ := List.append_eq_nil_iff.1 hl.symm
    unfold nullable
    rw [ihp hp, ihq hq]
    rfl

theorem lexeme_ne_nil_of_first? {p : Pattern} {s : Text} {m : Match} (hp : p.nullable = false)
    (h : p.first? s = some m) : m.lexeme ≠ [] := by
  intro hm
  have hdenotes := (mem_ways_iff.1 (List.mem_of_mem_head? h)).2
  rw [hm] at hdenotes
  rw [nullable_of_denotes_nil hdenotes] at hp
  exact nomatch hp

/-! ### Patterns that leave no choice -/

theorem ways_andThen (p q : Pattern) (s : Text) :
    (andThen p q).ways s = (p.ways s).flatMap fun m => (q.ways m.rest).map m.behind := rfl

theorem ways_perhaps (p : Pattern) (s : Text) : (perhaps p).ways s = p.ways s ++ [.empty s] := rfl

@[simp] theorem ways_literal_cons_nil (c : Char) (text : Text) :
    (literal (c :: text)).ways [] = [] := rfl

/-- A fixed text does not match where its first character is not. -/
theorem ways_literal_cons_of_ne {c x : Char} (h : c ≠ x) (text s : Text) :
    (literal (c :: text)).ways (x :: s) = [] := by
  have hne : (c == x) = false := by simpa using h
  simp [ways, List.isPrefixOf?, hne]

theorem ways_char_self (c : Char) (s : Text) : (literal [c]).ways (c :: s) = [⟨[c], [], s⟩] := by
  simp [ways, List.isPrefixOf?]

theorem ways_literal_andThen (text : Text) (q : Pattern) (s : Text) :
    (andThen (literal text) q).ways s =
      match text.isPrefixOf? s with
      | none => []
      | some rest => (q.ways rest).map (Match.behind ⟨text, [], rest⟩) := by
  rw [ways_andThen]
  show (((text.isPrefixOf? s).map _).toList).flatMap _ = _
  cases text.isPrefixOf? s with
  | none => rfl
  | some rest => exact List.flatMap_singleton _ _

theorem ways_literal_cons_andThen_of_ne {c x : Char} (h : c ≠ x) (text : Text) (q : Pattern)
    (s : Text) : (andThen (literal (c :: text)) q).ways (x :: s) = [] := by
  rw [ways_andThen, ways_literal_cons_of_ne h]
  rfl

/-- Where only the longest run can be followed by what has to follow, it is the only way. -/
theorem flatMap_runs {β : Type} {allowed : Char → Bool} {f : Match → List β}
    (hf : ∀ m c s, allowed c = true → m.rest = c :: s → f m = []) (s : Text) :
    (runs allowed s).flatMap f = f ⟨s.takeWhile allowed, [], s.dropWhile allowed⟩ := by
  induction s generalizing f with
  | nil => exact List.flatMap_singleton _ _
  | cons c s ih =>
    unfold runs
    by_cases hc : allowed c = true
    · -- the run that ends here is followed by a character of the class, so it leads to nothing
      have hshort : f (.empty (c :: s)) = [] := hf _ c s hc rfl
      have hlong := ih (f := fun m => f (Match.behind ⟨[c], [], s⟩ m))
        fun m x t hx hm => hf _ x t hx hm
      rw [if_pos hc, List.flatMap_append, List.flatMap_map, hlong, List.flatMap_singleton, hshort,
        List.append_nil, List.takeWhile_cons_of_pos hc, List.dropWhile_cons_of_pos hc]
      rfl
    · rw [if_neg hc, List.flatMap_singleton, List.takeWhile_cons_of_neg hc,
        List.dropWhile_cons_of_neg hc]
      rfl

theorem ways_greedy_andThen {allowed : Char → Bool} {q : Pattern}
    (hq : ∀ c s, allowed c = true → q.ways (c :: s) = []) (s : Text) :
    (andThen (greedy allowed) q).ways s =
      (q.ways (s.dropWhile allowed)).map
        (Match.behind ⟨s.takeWhile allowed, [], s.dropWhile allowed⟩) := by
  refine flatMap_runs (f := fun m => (q.ways m.rest).map m.behind) ?_ s
  intro m c t hc hm
  rw [hm, hq c t hc, List.map_nil]

theorem ways_capture_greedy_andThen {allowed : Char → Bool} {q : Pattern}
    (hq : ∀ c s, allowed c = true → q.ways (c :: s) = []) (s : Text) :
    (andThen (capture (greedy allowed)) q).ways s =
      (q.ways (s.dropWhile allowed)).map
        (Match.behind ⟨s.takeWhile allowed, s.takeWhile allowed, s.dropWhile allowed⟩) := by
  show ((runs allowed s).map _).flatMap _ = _
  rw [List.flatMap_map]
  refine flatMap_runs (f := fun m => (q.ways m.rest).map (Match.behind ⟨_, m.lexeme, m.rest⟩)) ?_ s
  intro m c t hc hm
  rw [hm, hq c t hc, List.map_nil]

/-- A character that may be there. -/
def optional (c : Char) : Pattern := perhaps (literal [c])

theorem ways_optional_andThen {c : Char} {q : Pattern} (hq : ∀ s, q.ways (c :: s) = []) (s : Text) :
    (andThen (optional c) q).ways s =
      (q.ways (s.drop (Marker.optional c s).length)).map
        (Match.behind ⟨Marker.optional c s, [], s.drop (Marker.optional c s).length⟩) := by
  unfold optional
  rw [ways_andThen, ways_perhaps, List.flatMap_append, List.flatMap_singleton]
  cases s with
  | nil => rfl
  | cons x s =>
    by_cases hx : x = c
    · subst hx
      have hshort : q.ways (Match.empty (x :: s)).rest = [] := hq s
      rw [ways_char_self, hshort, List.map_nil, List.append_nil, List.flatMap_singleton]
      simp [Marker.optional]
    · rw [ways_literal_cons_of_ne (Ne.symm hx)]
      simp [Marker.optional, hx, Match.empty]

/-- The end of a line. -/
def lineEnd : Pattern := andThen (optional '\r') (literal ['\n'])

theorem ways_lineEnd (s : Text) :
    lineEnd.ways s =
      if Marker.lineEnd s = [] then []
      else [⟨Marker.lineEnd s, [], s.drop (Marker.lineEnd s).length⟩] := by
  unfold lineEnd
  rw [ways_optional_andThen fun s => ways_literal_cons_of_ne (by decide) _ s]
  unfold Marker.lineEnd
  split
  · simp [Marker.optional, ways_char_self, Match.behind]
  · simp [Marker.optional, ways_char_self, Match.behind]
  · next h₁ h₂ =>
    rw [if_pos rfl]
    cases s with
    | nil => rfl
    | cons x s =>
      by_cases hx : x = '\r'
      · -- a carriage return alone ends no line
        subst hx
        cases s with
        | nil => rfl
        | cons y s =>
          have hy : '\n' ≠ y := fun h => h₂ s (h ▸ rfl)
          simp [Marker.optional, ways_literal_cons_of_ne hy]
      · have hn : '\n' ≠ x := fun h => h₁ s (h ▸ rfl)
        simp [Marker.optional, hx, ways_literal_cons_of_ne hn]

/-- The attribute that names the title of a hint. -/
def titleAttribute : Pattern :=
  andThen (one Text.isBlankChar) (andThen (greedy Text.isBlankChar)
    (andThen (literal "title=\"".toList)
      (andThen (capture (greedy (· ≠ '"'))) (literal ['"']))))

theorem ways_titleAttribute (s : Text) :
    titleAttribute.ways s =
      match Marker.titleAttribute? s with
      | none => []
      | some (written, title, rest) => [⟨written, title, rest⟩] := by
  -- neither what follows the blanks begins with a blank nor what follows the title with another
  -- character than a quote, so both are as long as they can be
  have hword : ∀ (q : Pattern) (c : Char) (s : Text), Text.isBlankChar c = true →
      (andThen (literal "title=\"".toList) q).ways (c :: s) = [] := by
    intro q c s hc
    refine ways_literal_cons_andThen_of_ne ?_ "itle=\"".toList q s
    rintro rfl
    exact nomatch hc
  have hquote : ∀ (c : Char) (s : Text), decide (c ≠ '"') = true →
      (literal ['"']).ways (c :: s) = [] :=
    fun c s hc => ways_literal_cons_of_ne (Ne.symm (of_decide_eq_true hc)) [] s
  unfold titleAttribute Marker.titleAttribute?
  cases s with
  | nil => rfl
  | cons c s =>
    by_cases hc : Text.isBlankChar c = true
    · rw [ways_andThen, ways, if_pos hc, List.flatMap_singleton, ways_greedy_andThen (hword _),
        ways_literal_andThen, List.takeWhile_cons_of_pos hc, List.dropWhile_cons_of_pos hc]
      simp only [List.cons_ne_nil, if_false]
      cases "title=\"".toList.isPrefixOf? (s.dropWhile Text.isBlankChar) with
      | none => rfl
      | some quoted =>
        simp only [ways_capture_greedy_andThen hquote]
        cases hd : quoted.dropWhile (· ≠ '"') with
        | nil => simp
        | cons quote rest =>
          have hq : quote = '"' := by
            have hstop := List.head?_dropWhile_not (· ≠ '"') quoted
            rw [hd] at hstop
            simpa using hstop
          subst hq
          simp [ways_char_self, Match.behind]
    · rw [ways_andThen, ways, if_neg hc, List.takeWhile_cons_of_neg hc]
      simp

/-! ### Titles that end as soon as they can -/

def inLine (c : Char) : Bool := ¬(c = '\r' ∨ c = '\n')

theorem reverse_runs_cons (allowed : Char → Bool) (c : Char) (s : Text) :
    (runs allowed (c :: s)).reverse = .empty (c :: s) ::
      if allowed c then (runs allowed s).reverse.map (Match.behind ⟨[c], [], s⟩) else [] := by
  show (if allowed c then _ else _ : List Match).reverse = _
  split
  · rw [List.reverse_append, List.map_reverse]
    rfl
  · rfl

/-- The shortest run within the line that something follows is what leads up to it. -/
theorem findSome?_lazy {β : Type} (stop : Text) (f : Text → Text → β) (s : Text) :
    (runs inLine s).reverse.findSome? (fun m => (stop.isPrefixOf? m.rest).map (f m.lexeme)) =
      (Marker.upTo? stop s).map fun found => f found.1 found.2 := by
  induction s generalizing f with
  | nil =>
    show List.findSome? _ [Match.empty []] = _
    rw [List.findSome?_singleton]
    unfold Marker.upTo?
    rw [Option.map_map]
    rfl
  | cons c s ih =>
    rw [reverse_runs_cons, List.findSome?_cons]
    have hfirst : (stop.isPrefixOf? (Match.empty (c :: s)).rest).map
        (f (Match.empty (c :: s)).lexeme) = (stop.isPrefixOf? (c :: s)).map (f []) := rfl
    rw [hfirst]
    unfold Marker.upTo?
    cases stop.isPrefixOf? (c :: s) with
    | some rest => rfl
    | none =>
      by_cases hc : c = '\r' ∨ c = '\n'
      · have hline : ¬inLine c = true := fun h => of_decide_eq_true h hc
        rw [if_neg hline]
        simp only [if_pos hc]
        rfl
      · have hline : inLine c = true := decide_eq_true hc
        have hlater := ih fun lexeme => f (c :: lexeme)
        rw [if_pos hline, List.findSome?_map]
        simp only [if_neg hc, Option.map_map]
        exact hlater

end Pattern

/-! ### Markers as patterns -/

namespace Marker

/-- The pattern that a marker stands for. -/
def pattern : Marker → Pattern
  | literal text => .literal text
  | details opening closing =>
      .andThen (.literal opening)
        (.andThen (.perhaps (.andThen (.literal " : ".toList) (.capture (.lazy Pattern.inLine))))
          (.literal closing))
  | hintTag =>
      .andThen (.literal "<hint".toList)
        (.andThen (.perhaps .titleAttribute) (.andThen (.greedy Text.isBlankChar) (.literal ['>'])))
  | fenceOpening =>
      .andThen (.optional '\r') (.andThen (.optional '\n')
        (.andThen (.literal "```coq".toList) (.andThen (.greedy isGapChar) .lineEnd)))
  | fenceClosing =>
      .andThen .lineEnd (.andThen (.literal "```".toList) (.perhaps .lineEnd))

/-- Markers that consist of something, and where a title cannot be taken for the closing. -/
def WellFormed : Marker → Prop
  | literal text => text ≠ []
  | details opening closing =>
      opening ≠ [] ∧ ¬ " : ".toList <+: closing ∧ ¬ closing <+: " : ".toList
  | hintTag | fenceOpening | fenceClosing => True

instance decidableWellFormed : (m : Marker) → Decidable m.WellFormed
  | literal text => inferInstanceAs (Decidable (text ≠ []))
  | details opening closing =>
      inferInstanceAs (Decidable (opening ≠ [] ∧ ¬ " : ".toList <+: closing ∧
        ¬ closing <+: " : ".toList))
  | hintTag | fenceOpening | fenceClosing => inferInstanceAs (Decidable True)

theorem nullable_pattern {m : Marker} (hm : m.WellFormed) : m.pattern.nullable = false := by
  cases m with
  | literal text => exact List.isEmpty_eq_false_iff.2 hm
  | details opening closing =>
    unfold pattern Pattern.nullable Pattern.nullable
    rw [List.isEmpty_eq_false_iff.2 hm.1]
    rfl
  | hintTag | fenceOpening | fenceClosing => rfl

theorem scanDetails?_eq {opening closing : Text} (hm : (details opening closing).WellFormed)
    (s : Text) : scanDetails? opening closing s = (details opening closing).pattern.first? s := by
  unfold pattern Pattern.first? scanDetails?
  rw [Pattern.ways_literal_andThen]
  cases opening.isPrefixOf? s with
  | none => rfl
  | some s =>
    simp only
    rw [Pattern.ways_andThen, Pattern.ways_perhaps, Pattern.ways_literal_andThen]
    cases hsep : " : ".toList.isPrefixOf? s with
    | none => simp [Pattern.ways, Match.empty, Match.behind, Function.comp_def]
    | some titled =>
      -- the closing does not follow at once where a title follows
      have hclosing : (Pattern.literal closing).ways s = [] := by
        show ((closing.isPrefixOf? s).map _).toList = []
        cases hc : closing.isPrefixOf? s with
        | none => rfl
        | some rest =>
          have h₁ := List.isPrefixOf?_eq_some_iff_append_eq.1 hsep
          have h₂ := List.isPrefixOf?_eq_some_iff_append_eq.1 hc
          rcases List.prefix_or_prefix_of_prefix ⟨_, h₁⟩ ⟨_, h₂⟩ with h | h
          · exact absurd h hm.2.1
          · exact absurd h hm.2.2
      simp only [List.flatMap_append, List.flatMap_singleton, Match.empty, hclosing, List.map_nil,
        List.append_nil, List.head?_map, List.flatMap_map, List.head?_flatMap]
      have hlazy := Pattern.findSome?_lazy closing
        (fun title rest => (⟨opening ++ " : ".toList ++ title ++ closing, title, rest⟩ : Match))
        titled
      rw [← hlazy]
      simp only [Pattern.ways, List.findSome?_map, Option.head?_toList, List.map_findSome?]
      congr 1
      funext m
      simp [Match.behind, Function.comp_def]

theorem scanHintTag?_eq (s : Text) : scanHintTag? s = hintTag.pattern.first? s := by
  unfold pattern Pattern.first? scanHintTag?
  rw [Pattern.ways_literal_andThen]
  cases "<hint".toList.isPrefixOf? s with
  | none => rfl
  | some s =>
    -- what follows the blanks is the end of the tag or it is not, whatever the blanks
    have hblanks : ∀ s, (Pattern.andThen (.greedy Text.isBlankChar) (.literal ['>'])).ways s =
        ((['>'].isPrefixOf? (s.dropWhile Text.isBlankChar)).map fun rest =>
          (⟨s.takeWhile Text.isBlankChar ++ ['>'], [], rest⟩ : Match)).toList := by
      intro s
      rw [Pattern.ways_greedy_andThen]
      · show ((Option.map _ _).toList).map _ = _
        cases ['>'].isPrefixOf? (s.dropWhile Text.isBlankChar) with
        | none => rfl
        | some rest => rfl
      · intro c s hc
        refine Pattern.ways_literal_cons_of_ne ?_ [] s
        rintro rfl
        exact absurd hc (by decide)
    simp only
    rw [Pattern.ways_andThen, Pattern.ways_perhaps, Pattern.ways_titleAttribute]
    simp only [hblanks]
    cases ht : titleAttribute? s with
    | none =>
      simp only [Option.getD_none, List.nil_append, List.flatMap_singleton, Match.empty]
      cases ['>'].isPrefixOf? (s.dropWhile Text.isBlankChar) with
      | none => rfl
      | some rest => simp [Match.behind]
    | some t =>
      obtain ⟨written, title, rest⟩ := t
      -- where a title follows the blanks, the tag does not end
      have hopen : ['>'].isPrefixOf? (s.dropWhile Text.isBlankChar) = none := by
        unfold titleAttribute? at ht
        simp only at ht
        split at ht
        · cases ht
        · cases hq : "title=\"".toList.isPrefixOf? (s.dropWhile Text.isBlankChar) with
          | none =>
            rw [hq] at ht
            cases ht
          | some quoted =>
            rw [eq_append_of_isPrefixOf? hq]
            rfl
      simp only [Option.getD_some, List.singleton_append, List.flatMap_cons, List.flatMap_nil,
        Match.empty, hopen]
      cases ['>'].isPrefixOf? (rest.dropWhile Text.isBlankChar) with
      | none => rfl
      | some rest => simp [Match.behind]

theorem scanFenceOpening?_eq (s : Text) : scanFenceOpening? s = fenceOpening.pattern.first? s := by
  have hword : ∀ (q : Pattern) (c : Char) (s : Text), c ≠ '`' →
      (Pattern.andThen (.literal "```coq".toList) q).ways (c :: s) = [] :=
    fun q c s hc => Pattern.ways_literal_cons_andThen_of_ne (Ne.symm hc) "``coq".toList q s
  have hgap : ∀ s, (Pattern.andThen (.greedy isGapChar) .lineEnd).ways s =
      if lineEnd (s.dropWhile isGapChar) = [] then []
      else [⟨s.takeWhile isGapChar ++ lineEnd (s.dropWhile isGapChar), [],
        (s.dropWhile isGapChar).drop (lineEnd (s.dropWhile isGapChar)).length⟩] := by
    intro s
    rw [Pattern.ways_greedy_andThen, Pattern.ways_lineEnd]
    · split
      · rfl
      · rfl
    · intro c s hc
      have hlf : c ≠ '\n' := by
        rintro rfl
        exact nomatch hc
      have hcr : c ≠ '\r' := by
        rintro rfl
        exact nomatch hc
      rw [Pattern.ways_lineEnd, if_pos]
      unfold lineEnd
      split
      · next h => exact absurd (List.cons.inj h).1 hlf
      · next h => exact absurd (List.cons.inj h).1 hcr
      · rfl
  unfold pattern Pattern.first? scanFenceOpening?
  rw [Pattern.ways_optional_andThen, Pattern.ways_optional_andThen fun s => hword _ _ s (by decide),
    Pattern.ways_literal_andThen]
  · simp only
    cases "```coq".toList.isPrefixOf? _ with
    | none => rfl
    | some s =>
      simp only [hgap]
      split
      · next h => simp
      · next h => simp [Match.behind]
  · intro s
    rw [Pattern.ways_optional_andThen fun s => hword _ _ s (by decide)]
    have hcr : optional '\n' ('\r' :: s) = [] := rfl
    rw [hcr]
    show ((Pattern.andThen _ _).ways ('\r' :: s)).map _ = []
    rw [hword _ _ s (by decide), List.map_nil]

theorem scanFenceClosing?_eq (s : Text) : scanFenceClosing? s = fenceClosing.pattern.first? s := by
  unfold pattern Pattern.first? scanFenceClosing?
  rw [Pattern.ways_andThen, Pattern.ways_lineEnd]
  by_cases hfront : lineEnd s = []
  · simp only [if_pos hfront]
    rfl
  · simp only [if_neg hfront, List.flatMap_singleton]
    rw [Pattern.ways_literal_andThen]
    cases "```".toList.isPrefixOf? (s.drop (lineEnd s).length) with
    | none => rfl
    | some s =>
      simp only [Pattern.ways_perhaps, Pattern.ways_lineEnd]
      by_cases hback : lineEnd s = []
      · simp [hback, Match.behind, Match.empty]
      · simp [hback, Match.behind]

/-- What a marker finds at a place is the first match of its pattern there. -/
theorem matchAt?_eq_first? {m : Marker} (hm : m.WellFormed) (s : Text) :
    m.matchAt? s = m.pattern.first? s := by
  have hscan : m.scan? s = m.pattern.first? s := by
    cases m with
    | literal text =>
      show _ = (Option.toList _).head?
      rw [Option.head?_toList]
      rfl
    | details opening closing => exact scanDetails?_eq hm s
    | hintTag => exact scanHintTag?_eq s
    | fenceOpening => exact scanFenceOpening?_eq s
    | fenceClosing => exact scanFenceClosing?_eq s
  unfold matchAt?
  rw [hscan]
  cases hfound : m.pattern.first? s with
  | none => rfl
  | some found =>
    exact Option.filter_some_pos
      (decide_eq_true (Pattern.lexeme_ne_nil_of_first? (nullable_pattern hm) hfound))

end Marker

end Worksheet
