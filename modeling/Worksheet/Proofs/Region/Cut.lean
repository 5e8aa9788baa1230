import Worksheet.Proofs.Area.Numbering
import Worksheet.Proofs.Region.Pattern
import Worksheet.Reading

/-! # Cutting a text into areas

  Reading loses, doubles and reorders nothing. A text can be cut into pieces, one for each area that
  is read from it and in the same order, none of them empty (`Cut`). What an area has to do with
  its piece is said by two relations: `RegionGrammar.ReadsLeaf` for the inside of a container and
  `RegionGrammar.ReadsArea` for a whole text. Both speak of patterns, not of the way a text is
  scanned: a region begins at the first place where an opening pattern matches, with the first
  rule that matches there, and ends with the match of the closing pattern that belongs to it.
-/

namespace Worksheet

/-! ### Cuts -/

/-- A text cut into pieces that are not empty, one for each element of a list; `R` says what a piece
    and what follows it have to do with the element. -/
inductive Cut {α : Type} (R : Text → Text → α → Prop) : Text → List α → Prop where
  | nil : Cut R [] []
  | cons {piece after : Text} {x : α} {xs : List α} :
      piece ≠ [] → R piece after x → Cut R after xs → Cut R (piece ++ after) (x :: xs)

theorem Cut.map {α β : Type} {R : Text → Text → α → Prop} {R' : Text → Text → β → Prop} {f : α → β}
    (hf : ∀ piece after x, R piece after x → R' piece after (f x)) {s : Text} {xs : List α}
    (h : Cut R s xs) : Cut R' s (xs.map f) := by
  induction h with
  | nil => exact .nil
  | cons hne hx _ ih => exact .cons hne (hf _ _ _ hx) ih

/-! ### Where patterns match -/

/-- No match of the pattern begins in a text that has `after` behind it. -/
def Pattern.Avoids (p : Pattern) (s after : Text) : Prop :=
  ∀ t, t <:+ s → t ≠ [] → p.first? (t ++ after) = none

theorem Pattern.avoids_nil (p : Pattern) (after : Text) : p.Avoids [] after := by
  intro t ht hne
  exact absurd (List.suffix_nil.1 ht) hne

theorem Pattern.avoids_cons {p : Pattern} {c : Char} {s after : Text}
    (hc : p.first? (c :: (s ++ after)) = none) (hs : p.Avoids s after) :
    p.Avoids (c :: s) after := by
  intro t ht hne
  rcases List.suffix_cons_iff.1 ht with rfl | ht
  · exact hc
  · exact hs t ht hne

namespace Rule

/-- How the markers of a rule in a text add up: its opening markers count up from `depth` and its
    closing markers count down, and `total` is reached. The text has `after` behind it. -/
inductive Weighs (r : Rule) (after : Text) : (depth : Nat) → Text → (total : Nat) → Prop where
  | nil (depth : Nat) : Weighs r after depth [] depth
  | closes {depth total : Nat} {stop : Match} {s : Text} :
      r.closing.pattern.first? (stop.lexeme ++ (s ++ after)) = some stop → stop.rest = s ++ after →
      Weighs r after depth s total → Weighs r after (depth + 1) (stop.lexeme ++ s) total
  | opens {depth total : Nat} {start : Match} {s : Text} :
      r.closing.pattern.first? (start.lexeme ++ (s ++ after)) = none →
      r.opening.pattern.first? (start.lexeme ++ (s ++ after)) = some start →
      start.rest = s ++ after →
      Weighs r after (depth + 1) s total → Weighs r after depth (start.lexeme ++ s) total
  | skips {depth total : Nat} {c : Char} {s : Text} :
      r.closing.pattern.first? (c :: (s ++ after)) = none →
      r.opening.pattern.first? (c :: (s ++ after)) = none →
      Weighs r after depth s total → Weighs r after depth (c :: s) total

/-- The inside of a region whose closing marker stands right behind it: the first one of a leaf, the
    one that balances the opening of a container. -/
def Ends (r : Rule) (inner : Text) (stop : Match) : Prop :=
  r.closing.pattern.first? (stop.lexeme ++ stop.rest) = some stop ∧
  match r.kind with
  | .leaf _ => r.closing.pattern.Avoids inner (stop.lexeme ++ stop.rest)
  | .collapsible | .input => r.Weighs (stop.lexeme ++ stop.rest) 0 inner 0

/-- A text behind an opening marker that no closing marker belongs to. -/
def Endless (r : Rule) (inner : Text) : Prop :=
  match r.kind with
  | .leaf _ => r.closing.pattern.Avoids inner []
  | .collapsible | .input => ∃ depth, r.Weighs [] 0 inner depth

end Rule

/-! ### What areas have to do with their pieces -/

namespace RegionGrammar

/-- A rule opens a region, and no earlier rule does. -/
def Opens (g : RegionGrammar) (r : Rule) (start : Match) : Prop :=
  ∃ earlier later, g.rules = earlier ++ r :: later ∧
    r.opening.pattern.first? (start.lexeme ++ start.rest) = some start ∧
    ∀ r' ∈ earlier, r'.opening.pattern.first? (start.lexeme ++ start.rest) = none

/-- A piece between regions: none begins in it, and behind it one begins or nothing is left. -/
def Plain (g : RegionGrammar) (piece after : Text) : Prop :=
  (∀ r ∈ g.rules, r.opening.pattern.Avoids piece after) ∧
  (after = [] ∨ ∃ r start, g.Opens r start ∧ after = start.lexeme ++ start.rest)

/-- A piece that is the region of a rule, with the title in its opening marker and its inside. -/
inductive Encloses (g : RegionGrammar) (r : Rule) : (piece after title inner : Text) → Prop where
  | closed {start stop : Match} {inner : Text} :
      g.Opens r start → start.rest = inner ++ (stop.lexeme ++ stop.rest) → r.Ends inner stop →
      Encloses g r (start.lexeme ++ inner ++ stop.lexeme) stop.rest start.title inner
  | unclosed {start : Match} :
      g.Opens r start → r.Endless start.rest →
      Encloses g r (start.lexeme ++ start.rest) [] start.title start.rest

/-- What a piece inside a container is read as. -/
inductive ReadsLeaf (g : RegionGrammar) : (piece after : Text) → LeafShape → Prop where
  | plain {piece after : Text} : g.Plain piece after → ReadsLeaf g piece after ⟨g.between, piece⟩
  | leaf {r : Rule} {kind : LeafKind} {piece after title inner : Text} :
      g.Encloses r piece after title inner → r.kind = .leaf kind →
      ReadsLeaf g piece after ⟨kind, inner⟩
  /-- A container has no place here and becomes prose that is all of it. -/
  | container {r : Rule} {piece after title inner : Text} :
      g.Encloses r piece after title inner → (∀ kind, r.kind ≠ .leaf kind) →
      ReadsLeaf g piece after ⟨.text, piece⟩

/-- What a piece of a whole text is read as. -/
inductive ReadsArea (g : RegionGrammar) : (piece after : Text) → Shape → Prop where
  | plain {piece after : Text} :
      g.Plain piece after → ReadsArea g piece after (.leaf ⟨g.between, piece⟩)
  | leaf {r : Rule} {kind : LeafKind} {piece after title inner : Text} :
      g.Encloses r piece after title inner → r.kind = .leaf kind →
      ReadsArea g piece after (.leaf ⟨kind, inner⟩)
  | collapsible {r : Rule} {piece after title inner : Text} {children : List LeafShape} :
      g.Encloses r piece after title inner → r.kind = .collapsible →
      Cut g.ReadsLeaf inner children →
      ReadsArea g piece after (.container (.collapsible title) children)
  | input {r : Rule} {piece after title inner : Text} {children : List LeafShape} :
      g.Encloses r piece after title inner → r.kind = .input → Cut g.ReadsLeaf inner children →
      ReadsArea g piece after (.container (.input .unattempted) children)

end RegionGrammar

/-! ### Scanning finds what the patterns say -/

namespace Marker

theorem find?_eq_some {m : Marker} (hm : m.WellFormed) {s before : Text} {found : Match}
    (h : m.find? s = some (before, found)) :
    m.pattern.first? (found.lexeme ++ found.rest) = some found ∧
      m.pattern.Avoids before (found.lexeme ++ found.rest) := by
  induction s generalizing before with
  | nil => exact nomatch h
  | cons c s ih =>
    unfold find? at h
    cases hat : m.matchAt? (c :: s) with
    | some found' =>
      rw [hat] at h
      obtain ⟨rfl, rfl⟩ := Prod.mk.inj (Option.some.inj h)
      rw [← eq_append_of_matchAt? hat, ← matchAt?_eq_first? hm]
      exact ⟨hat, Pattern.avoids_nil _ _⟩
    | none =>
      rw [hat] at h
      obtain ⟨⟨before', found'⟩, hfound, hpair⟩ := Option.map_eq_some_iff.1 h
      obtain ⟨rfl, rfl⟩ := Prod.mk.inj hpair
      obtain ⟨hfirst, havoids⟩ := ih hfound
      refine ⟨hfirst, Pattern.avoids_cons ?_ havoids⟩
      rw [← List.append_assoc, ← eq_append_of_find? hfound, ← matchAt?_eq_first? hm]
      exact hat

theorem find?_eq_none {m : Marker} (hm : m.WellFormed) {s : Text} (h : m.find? s = none) :
    m.pattern.Avoids s [] := by
  induction s with
  | nil => exact Pattern.avoids_nil _ _
  | cons c s ih =>
    unfold find? at h
    cases hat : m.matchAt? (c :: s) with
    | some found =>
      rw [hat] at h
      cases h
    | none =>
      rw [hat] at h
      refine Pattern.avoids_cons ?_ (ih (Option.map_eq_none_iff.1 h))
      rw [List.append_nil, ← matchAt?_eq_first? hm]
      exact hat

end Marker

namespace Rule

variable {r : Rule}

/-- A rule whose markers consist of something. -/
def WellFormed (r : Rule) : Prop := r.opening.WellFormed ∧ r.closing.WellFormed

instance (r : Rule) : Decidable r.WellFormed :=
  inferInstanceAs (Decidable (r.opening.WellFormed ∧ r.closing.WellFormed))

/-- What is in front of the closing marker that balances `depth` open regions adds up to none. -/
theorem weighs_of_balance? (hr : r.WellFormed) {depth : Nat} {s inner : Text} {stop : Match}
    (h : r.balance? depth s = some (inner, stop)) :
    r.closing.pattern.first? (stop.lexeme ++ stop.rest) = some stop ∧
      r.Weighs (stop.lexeme ++ stop.rest) depth inner 0 := by
  fun_induction Rule.balance? r depth s generalizing inner with
  | case1 => cases h
  | case2 c tail found hc =>
    obtain ⟨rfl, rfl⟩ := Prod.mk.inj (Option.some.inj h)
    rw [← Marker.eq_append_of_matchAt? hc, ← Marker.matchAt?_eq_first? hr.2]
    exact ⟨hc, .nil 0⟩
  | case3 c tail found hc depth ih =>
    obtain ⟨⟨before, stop'⟩, hbalance, hpair⟩ := Option.map_eq_some_iff.1 h
    obtain ⟨rfl, rfl⟩ := Prod.mk.inj hpair
    obtain ⟨hstop, hweighs⟩ := ih hbalance
    have hrest := Rule.eq_append_of_balance? hbalance
    rw [List.append_assoc] at hrest
    refine ⟨hstop, .closes ?_ hrest hweighs⟩
    rw [← hrest, ← Marker.eq_append_of_matchAt? hc, ← Marker.matchAt?_eq_first? hr.2]
    exact hc
  | case4 depth c tail hc start ho ih =>
    obtain ⟨⟨before, stop'⟩, hbalance, hpair⟩ := Option.map_eq_some_iff.1 h
    obtain ⟨rfl, rfl⟩ := Prod.mk.inj hpair
    obtain ⟨hstop, hweighs⟩ := ih hbalance
    have hrest := Rule.eq_append_of_balance? hbalance
    rw [List.append_assoc] at hrest
    refine ⟨hstop, .opens ?_ ?_ hrest hweighs⟩
    · rw [← hrest, ← Marker.eq_append_of_matchAt? ho, ← Marker.matchAt?_eq_first? hr.2]
      exact hc
    · rw [← hrest, ← Marker.eq_append_of_matchAt? ho, ← Marker.matchAt?_eq_first? hr.1]
      exact ho
  | case5 depth c tail hc ho ih =>
    obtain ⟨⟨before, stop'⟩, hbalance, hpair⟩ := Option.map_eq_some_iff.1 h
    obtain ⟨rfl, rfl⟩ := Prod.mk.inj hpair
    obtain ⟨hstop, hweighs⟩ := ih hbalance
    have hrest := Rule.eq_append_of_balance? hbalance
    rw [List.append_assoc] at hrest
    rw [Marker.matchAt?_eq_first? hr.2, hrest] at hc
    rw [Marker.matchAt?_eq_first? hr.1, hrest] at ho
    exact ⟨hstop, .skips hc ho hweighs⟩

/-- Where no closing marker balances `depth` open regions, all of the text adds up to something. -/
theorem weighs_of_balance?_eq_none (hr : r.WellFormed) {depth : Nat} {s : Text}
    (h : r.balance? depth s = none) : ∃ total, r.Weighs [] depth s total := by
  fun_induction Rule.balance? r depth s with
  | case1 depth => exact ⟨depth, .nil depth⟩
  | case2 c tail found hc => cases h
  | case3 c tail found hc depth ih =>
    obtain ⟨total, hweighs⟩ := ih (Option.map_eq_none_iff.1 h)
    refine ⟨total, ?_⟩
    rw [Marker.eq_append_of_matchAt? hc]
    refine .closes ?_ (List.append_nil _).symm hweighs
    rw [List.append_nil, ← Marker.eq_append_of_matchAt? hc, ← Marker.matchAt?_eq_first? hr.2]
    exact hc
  | case4 depth c tail hc start ho ih =>
    obtain ⟨total, hweighs⟩ := ih (Option.map_eq_none_iff.1 h)
    refine ⟨total, ?_⟩
    rw [Marker.eq_append_of_matchAt? ho]
    refine .opens ?_ ?_ (List.append_nil _).symm hweighs
    · rw [List.append_nil, ← Marker.eq_append_of_matchAt? ho, ← Marker.matchAt?_eq_first? hr.2]
      exact hc
    · rw [List.append_nil, ← Marker.eq_append_of_matchAt? ho, ← Marker.matchAt?_eq_first? hr.1]
      exact ho
  | case5 depth c tail hc ho ih =>
    obtain ⟨total, hweighs⟩ := ih (Option.map_eq_none_iff.1 h)
    rw [Marker.matchAt?_eq_first? hr.2] at hc
    rw [Marker.matchAt?_eq_first? hr.1] at ho
    exact ⟨total, .skips (by rwa [List.append_nil]) (by rwa [List.append_nil]) hweighs⟩

theorem ends_of_close? (hr : r.WellFormed) {s inner : Text} {stop : Match}
    (h : r.close? s = some (inner, stop)) : r.Ends inner stop := by
  unfold Rule.close? at h
  unfold Ends
  cases hk : r.kind with
  | leaf kind =>
    rw [hk] at h
    exact Marker.find?_eq_some hr.2 h
  | collapsible | input =>
    rw [hk] at h
    exact weighs_of_balance? hr h

theorem endless_of_close? (hr : r.WellFormed) {s : Text} (h : r.close? s = none) :
    r.Endless s := by
  unfold Rule.close? at h
  unfold Endless
  cases hk : r.kind with
  | leaf kind =>
    rw [hk] at h
    exact Marker.find?_eq_none hr.2 h
  | collapsible | input =>
    rw [hk] at h
    exact weighs_of_balance?_eq_none hr h

end Rule

namespace RegionGrammar

variable {g : RegionGrammar}

/-- A grammar whose rules are well-formed. -/
def WellFormed (g : RegionGrammar) : Prop := ∀ r ∈ g.rules, r.WellFormed

instance (g : RegionGrammar) : Decidable g.WellFormed :=
  inferInstanceAs (Decidable (∀ r ∈ g.rules, r.WellFormed))

theorem opens_of_openingAt? (hg : g.WellFormed) {s : Text} {r : Rule} {start : Match}
    (h : g.openingAt? s = some (r, start)) : r ∈ g.rules ∧ g.Opens r start ∧
      s = start.lexeme ++ start.rest := by
  obtain ⟨earlier, r', later, hrules, hr', hearlier⟩ := List.findSome?_eq_some_iff.1 h
  obtain ⟨start', hat, hpair⟩ := Option.map_eq_some_iff.1 hr'
  obtain ⟨rfl, rfl⟩ := Prod.mk.inj hpair
  have hmem : r' ∈ g.rules := by
    rw [hrules]
    exact List.mem_append_right _ List.mem_cons_self
  have hs := Marker.eq_append_of_matchAt? hat
  refine ⟨hmem, ⟨earlier, later, hrules, ?_, ?_⟩, hs⟩
  · rw [← hs, ← Marker.matchAt?_eq_first? (hg r' hmem).1]
    exact hat
  · intro r'' hr''
    have hmem'' : r'' ∈ g.rules := by
      rw [hrules]
      exact List.mem_append_left _ hr''
    rw [← hs, ← Marker.matchAt?_eq_first? (hg r'' hmem'').1]
    exact Option.map_eq_none_iff.1 (hearlier r'' hr'')

theorem first?_of_openingAt?_eq_none (hg : g.WellFormed) {s : Text} (h : g.openingAt? s = none)
    {r : Rule} (hr : r ∈ g.rules) : r.opening.pattern.first? s = none := by
  rw [← Marker.matchAt?_eq_first? (hg r hr).1]
  exact Option.map_eq_none_iff.1 (List.findSome?_eq_none_iff.1 h r hr)

theorem nextOpening?_eq_some (hg : g.WellFormed) {s before : Text} {r : Rule} {start : Match}
    (h : g.nextOpening? s = some (before, r, start)) :
    r ∈ g.rules ∧ g.Opens r start ∧
      ∀ r' ∈ g.rules, r'.opening.pattern.Avoids before (start.lexeme ++ start.rest) := by
  induction s generalizing before with
  | nil => exact nomatch h
  | cons c s ih =>
    unfold nextOpening? at h
    cases hat : g.openingAt? (c :: s) with
    | some opened =>
      rw [hat] at h
      obtain ⟨rfl, rfl⟩ := Prod.mk.inj (Option.some.inj h)
      obtain ⟨hmem, hopens, -⟩ := opens_of_openingAt? hg hat
      exact ⟨hmem, hopens, fun r' _ => Pattern.avoids_nil _ _⟩
    | none =>
      rw [hat] at h
      obtain ⟨⟨before', opened⟩, hnext, hpair⟩ := Option.map_eq_some_iff.1 h
      obtain ⟨rfl, rfl⟩ := Prod.mk.inj hpair
      obtain ⟨hmem, hopens, havoids⟩ := ih hnext
      refine ⟨hmem, hopens, ?_⟩
      intro r' hr'
      refine Pattern.avoids_cons ?_ (havoids r' hr')
      rw [← List.append_assoc, ← (eq_append_of_nextOpening? hnext).1]
      exact first?_of_openingAt?_eq_none hg hat hr'

theorem nextOpening?_eq_none (hg : g.WellFormed) {s : Text} (h : g.nextOpening? s = none) {r : Rule}
    (hr : r ∈ g.rules) : r.opening.pattern.Avoids s [] := by
  induction s with
  | nil => exact Pattern.avoids_nil _ _
  | cons c s ih =>
    unfold nextOpening? at h
    cases hat : g.openingAt? (c :: s) with
    | some opened =>
      rw [hat] at h
      cases h
    | none =>
      rw [hat] at h
      refine Pattern.avoids_cons ?_ (ih (Option.map_eq_none_iff.1 h))
      rw [List.append_nil]
      exact first?_of_openingAt?_eq_none hg hat hr

/-! ### The cut of a text -/

/-- What a piece has to do with the segment that it is. -/
def IsSegment (g : RegionGrammar) (piece after : Text) : Segment → Prop
  | .plain text => text = piece ∧ g.Plain piece after
  | .region kind title opening inner closing =>
      (Segment.region kind title opening inner closing).text = piece ∧
      ∃ r, r.kind = kind ∧ g.Encloses r piece after title inner

/-- A region is what the rule encloses. -/
theorem isSegment_region (hg : g.WellFormed) {r : Rule} (hr : r ∈ g.rules) {start : Match}
    (hopens : g.Opens r start) :
    g.IsSegment (r.region start).1.text (r.region start).2 (r.region start).1 := by
  unfold Rule.region
  cases hclose : r.close? start.rest with
  | some found =>
    obtain ⟨inner, stop⟩ := found
    have hrest := Rule.eq_append_of_close? hclose
    rw [List.append_assoc] at hrest
    exact ⟨rfl, r, rfl, .closed hopens hrest (Rule.ends_of_close? (hg r hr) hclose)⟩
  | none =>
    refine ⟨rfl, r, rfl, ?_⟩
    show g.Encloses r (start.lexeme ++ start.rest ++ []) [] start.title start.rest
    rw [List.append_nil]
    exact .unclosed hopens (Rule.endless_of_close? (hg r hr) hclose)

theorem text_region_ne_nil (r : Rule) {start : Match} (hstart : start.lexeme ≠ []) :
    (r.region start).1.text ≠ [] := by
  intro h
  have hlength := congrArg List.length (r.text_region_append start)
  have hrest := r.length_region_le start
  have hpos := List.length_pos_iff.2 hstart
  rw [h, List.nil_append, List.length_append] at hlength
  omega

theorem cut_plain?_append {before after : Text} {segments : List Segment}
    (hplain : g.Plain before after) (h : Cut g.IsSegment after segments) :
    Cut g.IsSegment (before ++ after) (Segment.plain? before ++ segments) := by
  unfold Segment.plain?
  by_cases hbefore : before = []
  · rw [if_pos hbefore, hbefore]
    exact h
  · rw [if_neg hbefore]
    exact .cons hbefore ⟨rfl, hplain⟩ h

/-- The segments of a text cut it. -/
theorem cut_segments (hg : g.WellFormed) (s : Text) : Cut g.IsSegment s (g.segments s) := by
  fun_induction segments g s with
  | case1 s hnext =>
    have hplain : g.Plain s [] := ⟨fun r hr => nextOpening?_eq_none hg hnext hr, .inl rfl⟩
    have hcut := cut_plain?_append hplain .nil
    rwa [List.append_nil, List.append_nil] at hcut
  | case2 s before r start hnext ih =>
    obtain ⟨hmem, hopens, havoids⟩ := nextOpening?_eq_some hg hnext
    obtain ⟨hs, hne⟩ := eq_append_of_nextOpening? hnext
    have hplain : g.Plain before (start.lexeme ++ start.rest) :=
      ⟨havoids, .inr ⟨r, start, hopens, rfl⟩⟩
    rw [hs, List.append_assoc]
    refine cut_plain?_append hplain ?_
    rw [← r.text_region_append start]
    exact .cons (text_region_ne_nil r hne) (isSegment_region hg hmem hopens) ih

/-- Each leaf inside a container has to do with the segment that it is read from. -/
theorem readsLeaf_leafShape {piece after : Text} {segment : Segment}
    (h : g.IsSegment piece after segment) : g.ReadsLeaf piece after (g.leafShape segment) := by
  cases segment with
  | plain text =>
    obtain ⟨rfl, hplain⟩ := h
    exact .plain hplain
  | region kind title opening inner closing =>
    obtain ⟨rfl, r, hkind, hencloses⟩ := h
    cases kind with
    | leaf kind => exact .leaf hencloses hkind
    | collapsible | input =>
      refine .container hencloses ?_
      intro kind hk
      rw [hkind] at hk
      exact nomatch hk

theorem cut_leaves (hg : g.WellFormed) (inner : Text) : Cut g.ReadsLeaf inner (g.leaves inner) :=
  (cut_segments hg inner).map (f := g.leafShape) fun _ _ _ h => readsLeaf_leafShape h

theorem readsArea_shape (hg : g.WellFormed) {piece after : Text} {segment : Segment}
    (h : g.IsSegment piece after segment) : g.ReadsArea piece after (g.shape segment) := by
  cases segment with
  | plain text =>
    obtain ⟨rfl, hplain⟩ := h
    exact .plain hplain
  | region kind title opening inner closing =>
    obtain ⟨-, r, hkind, hencloses⟩ := h
    cases kind with
    | leaf kind => exact .leaf hencloses hkind
    | collapsible => exact .collapsible hencloses hkind (cut_leaves hg inner)
    | input => exact .input hencloses hkind (cut_leaves hg inner)

/-- What is read from a text cuts it. -/
theorem cut_read (hg : g.WellFormed) (s : Text) : Cut g.ReadsArea s (g.read s) :=
  (cut_segments hg s).map (f := g.shape) fun _ _ _ h => readsArea_shape hg h

theorem wellFormed_coq : coq.WellFormed := by decide

theorem wellFormed_coqmd : coqmd.WellFormed := by decide

theorem wellFormed_leanPure : leanPure.WellFormed := by decide

end RegionGrammar

/-- In each of the region grammars the areas that are read from a text cut it: it is the pieces of
    the areas one after the other, none of them empty, with each area as its piece says. -/
theorem Dialect.cut_parse (source : Text) (ids : IdCounter) :
    Cut RegionGrammar.coq.ReadsArea source ((coq.parse source ids).1.map Area.shape) ∧
    Cut RegionGrammar.coqmd.ReadsArea source ((coqmd.parse source ids).1.map Area.shape) ∧
    Cut RegionGrammar.leanPure.ReadsArea source
      ((leanPure.parse source ids).1.map Area.shape) := by
  unfold parse
  simp only [Area.map_shape_number]
  exact ⟨RegionGrammar.cut_read RegionGrammar.wellFormed_coq source,
    RegionGrammar.cut_read RegionGrammar.wellFormed_coqmd source,
    RegionGrammar.cut_read RegionGrammar.wellFormed_leanPure source⟩

end Worksheet
