import Worksheet.Area
import Worksheet.Region.Marker

/-! # Segments

  A region grammar lists rules, each with an opening and a closing marker, and a kind for the text
  between regions. It cuts a text into segments from left to right: the earliest opening marker
  begins a region, and of two rules that open at one place the earlier in the list counts. The
  region of a leaf runs to the first closing marker, that of a container to the closing marker
  that balances its own, counting the markers of its rule only. A region that is never closed
  takes all that is left. Reading never fails, and the segments make up the text
  (`RegionGrammar.flatMap_segments`).

  The inside of a container is cut the same way, but there a container cannot be represented: it
  becomes prose that holds its whole text, markers included.
-/

namespace Worksheet

/-! ### Rules -/

/-- What a region is read as. -/
inductive RegionKind where
  | leaf (kind : LeafKind)
  | collapsible
  | input
deriving DecidableEq

/-- One kind of region with its markers. -/
structure Rule where
  kind : RegionKind
  opening : Marker
  closing : Marker
deriving DecidableEq

/-- The rules of a dialect, the earlier before the later where both open a region. -/
structure RegionGrammar where
  /-- The kind of the text between regions. -/
  between : LeafKind
  rules : List Rule
deriving DecidableEq

/-! ### The end of a region -/

/-- The place where the closing markers of a rule outnumber its opening markers by `depth + 1`: what
    precedes that closing marker, and the marker. -/
def Rule.balance? (r : Rule) (depth : Nat) (s : Text) : Option (Text × Match) :=
  match s with
  | [] => none
  | c :: tail =>
    match _hc : r.closing.matchAt? (c :: tail) with
    | some stop =>
      match depth with
      | 0 => some ([], stop)
      | depth + 1 =>
        (r.balance? depth stop.rest).map fun (before, found) => (stop.lexeme ++ before, found)
    | none =>
      match ho : r.opening.matchAt? (c :: tail) with
      | some start =>
        (r.balance? (depth + 1) start.rest).map fun (before, found) =>
          (start.lexeme ++ before, found)
      | none => (r.balance? depth tail).map fun (before, found) => (c :: before, found)
termination_by s.length
decreasing_by
  · exact Marker.length_rest_lt _hc
  · exact Marker.length_rest_lt ho
  · simp

/-- The end of the region that a rule has opened: what is inside, and the closing marker. -/
def Rule.close? (r : Rule) (s : Text) : Option (Text × Match) :=
  match r.kind with
  | .leaf _ => r.closing.find? s
  | .collapsible | .input => r.balance? 0 s

theorem Rule.eq_append_of_balance? {r : Rule} {depth : Nat} {s inner : Text} {stop : Match}
    (h : r.balance? depth s = some (inner, stop)) : s = inner ++ stop.lexeme ++ stop.rest := by
  fun_induction Rule.balance? r depth s generalizing inner with
  | case1 => simp at h
  | case2 c tail found hc =>
    cases h
    exact Marker.eq_append_of_matchAt? hc
  | case3 c tail found hc depth ih =>
    obtain ⟨⟨before, stop'⟩, hb, he⟩ := Option.map_eq_some_iff.1 h
    cases he
    rw [Marker.eq_append_of_matchAt? hc, ih hb]
    simp
  | case4 depth c tail hc start ho ih =>
    obtain ⟨⟨before, stop'⟩, hb, he⟩ := Option.map_eq_some_iff.1 h
    cases he
    rw [Marker.eq_append_of_matchAt? ho, ih hb]
    simp
  | case5 depth c tail hc ho ih =>
    obtain ⟨⟨before, stop'⟩, hb, he⟩ := Option.map_eq_some_iff.1 h
    cases he
    simpa using ih hb

/-- What is inside a region, its closing marker and what follows make up the text. -/
theorem Rule.eq_append_of_close? {r : Rule} {s inner : Text} {stop : Match}
    (h : r.close? s = some (inner, stop)) : s = inner ++ stop.lexeme ++ stop.rest := by
  unfold Rule.close? at h
  split at h
  · exact Marker.eq_append_of_find? h
  · exact Rule.eq_append_of_balance? h
  · exact Rule.eq_append_of_balance? h

/-! ### The start of a region -/

namespace RegionGrammar

/-- The first rule that opens a region at the front of a text. -/
def openingAt? (g : RegionGrammar) (s : Text) : Option (Rule × Match) :=
  g.rules.findSome? fun r => (r.opening.matchAt? s).map (r, ·)

/-- The first region of a text: what precedes it, its rule and its opening marker. -/
def nextOpening? (g : RegionGrammar) : Text → Option (Text × Rule × Match)
  | [] => none
  | c :: s =>
    match g.openingAt? (c :: s) with
    | some opened => some ([], opened)
    | none => (g.nextOpening? s).map fun (before, opened) => (c :: before, opened)

theorem eq_append_of_nextOpening? {g : RegionGrammar} {s before : Text} {r : Rule} {start : Match}
    (h : g.nextOpening? s = some (before, r, start)) :
    s = before ++ start.lexeme ++ start.rest ∧ start.lexeme ≠ [] := by
  induction s generalizing before with
  | nil => simp [nextOpening?] at h
  | cons c s ih =>
    simp only [nextOpening?] at h
    split at h
    · next opened ho =>
      cases h
      obtain ⟨r', _, hr⟩ := List.exists_of_findSome?_eq_some ho
      obtain ⟨m, hm, he⟩ := Option.map_eq_some_iff.1 hr
      cases he
      exact ⟨Marker.eq_append_of_matchAt? hm, Marker.lexeme_ne_nil hm⟩
    · obtain ⟨⟨b, o⟩, hb, he⟩ := Option.map_eq_some_iff.1 h
      cases he
      simpa using ih hb

end RegionGrammar

/-! ### Segments -/

/-- A piece of a text that is read as one area. -/
inductive Segment where
  /-- Text between regions. -/
  | plain (text : Text)
  /-- A region: its kind, the title in its opening marker, the marker, what is inside, and the
      closing marker unless the region is never closed. -/
  | region (kind : RegionKind) (title opening inner : Text) (closing : Option Text)
deriving DecidableEq

/-- The piece of text that a segment is. -/
def Segment.text : Segment → Text
  | plain text => text
  | region _ _ opening inner closing => opening ++ inner ++ closing.getD []

/-- The region that a rule has opened, and the text behind it. -/
def Rule.region (r : Rule) (start : Match) : Segment × Text :=
  match r.close? start.rest with
  | some (inner, stop) =>
    (.region r.kind start.title start.lexeme inner (some stop.lexeme), stop.rest)
  | none => (.region r.kind start.title start.lexeme start.rest none, [])

theorem Rule.text_region_append (r : Rule) (start : Match) :
    (r.region start).1.text ++ (r.region start).2 = start.lexeme ++ start.rest := by
  unfold Rule.region
  split
  · next inner stop h => simp [Segment.text, Rule.eq_append_of_close? h]
  · simp [Segment.text]

theorem Rule.length_region_le (r : Rule) (start : Match) :
    (r.region start).2.length ≤ start.rest.length := by
  unfold Rule.region
  split
  · next inner stop h =>
    have := congrArg List.length (Rule.eq_append_of_close? h)
    simp only [List.length_append] at this
    show stop.rest.length ≤ _
    omega
  · simp

/-- A segment of text between regions, unless there is none. -/
def Segment.plain? (text : Text) : List Segment := if text = [] then [] else [.plain text]

namespace RegionGrammar

/-- Cuts a text into segments. -/
def segments (g : RegionGrammar) (s : Text) : List Segment :=
  match _h : g.nextOpening? s with
  | none => Segment.plain? s
  | some (before, r, start) =>
    Segment.plain? before ++ (r.region start).1 :: g.segments (r.region start).2
termination_by s.length
decreasing_by
  have ⟨hs, hne⟩ := eq_append_of_nextOpening? _h
  have h₁ := congrArg List.length hs
  have h₂ := List.length_pos_iff.2 hne
  have h₃ := r.length_region_le start
  simp only [List.length_append] at h₁
  omega

@[simp] theorem flatMap_plain? (s : Text) : (Segment.plain? s).flatMap Segment.text = s := by
  unfold Segment.plain?
  split
  · next h => simp [h]
  · simp [Segment.text]

/-- The segments of a text make it up. -/
theorem flatMap_segments (g : RegionGrammar) (s : Text) :
    (g.segments s).flatMap Segment.text = s := by
  fun_induction segments g s with
  | case1 s h => simp
  | case2 s before r start h ih =>
    simp only [List.flatMap_append, flatMap_plain?, List.flatMap_cons, ih, Rule.text_region_append]
    rw [(eq_append_of_nextOpening? h).1, List.append_assoc]

/-! ### Shapes -/

/-- A segment inside a container, as a leaf. -/
def leafShape (g : RegionGrammar) : Segment → LeafShape
  | .plain text => ⟨g.between, text⟩
  | .region (.leaf kind) _ _ inner _ => ⟨kind, inner⟩
  | .region kind title opening inner closing =>
    ⟨.text, (Segment.region kind title opening inner closing).text⟩

/-- The leaves inside a container. -/
def leaves (g : RegionGrammar) (inner : Text) : List LeafShape := (g.segments inner).map g.leafShape

/-- A segment of a whole text, as an area. A text says nothing of grades. -/
def shape (g : RegionGrammar) : Segment → Shape
  | .plain text => .leaf ⟨g.between, text⟩
  | .region (.leaf kind) _ _ inner _ => .leaf ⟨kind, inner⟩
  | .region .collapsible title _ inner _ => .container (.collapsible title) (g.leaves inner)
  | .region .input _ _ inner _ => .container (.input .unattempted) (g.leaves inner)

/-- Reads a text. -/
def read (g : RegionGrammar) (s : Text) : List Shape := (g.segments s).map g.shape

/-! ### The region grammars -/

/-- Coq: prose in doc comments, code between them. -/
def coq : RegionGrammar where
  between := .code
  rules := [
    ⟨.leaf .math, .literal "(** $$".toList, .literal "$$ *)".toList⟩,
    ⟨.leaf .text, .literal "(** ".toList, .literal " *)".toList⟩,
    ⟨.collapsible, .details "(* begin details".toList " *)".toList,
      .literal "(* end details *)".toList⟩,
    ⟨.input, .literal "(* begin input *)".toList, .literal "(* end input *)".toList⟩]

/-- Markdown with fenced code and tags, prose between them. -/
def coqmd : RegionGrammar where
  between := .text
  rules := [
    ⟨.leaf .code, .fenceOpening, .fenceClosing⟩,
    ⟨.leaf .math, .literal "$$".toList, .literal "$$".toList⟩,
    ⟨.collapsible, .hintTag, .literal "</hint>".toList⟩,
    ⟨.input, .literal "<input-area>".toList, .literal "</input-area>".toList⟩]

/-- Lean: prose in doc comments, code between them. -/
def leanPure : RegionGrammar where
  between := .code
  rules := [
    ⟨.leaf .math, .literal "/-! $$".toList, .literal "$$ -/".toList⟩,
    ⟨.leaf .text, .literal "/-! ".toList, .literal " -/".toList⟩,
    ⟨.collapsible, .details "/- begin details".toList " -/".toList,
      .literal "/- end details -/".toList⟩,
    ⟨.input, .literal "/- begin input -/".toList, .literal "/- end input -/".toList⟩]

end RegionGrammar

end Worksheet
