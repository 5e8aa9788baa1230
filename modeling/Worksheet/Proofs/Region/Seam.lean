import Worksheet.Region.Segment

/-! # Scanning across a seam

  Where no marker begins in the front part of a text, scanning goes through it and on with what
  follows. Whether a marker begins there can depend on what follows, since a marker may lie across
  the seam (`Marker.Clear`). Markers that show themselves by their second character cannot lie
  across a seam behind which another character stands (`Marker.Heralded.clear`).
-/

namespace Worksheet

/-! ### Texts in which no marker begins -/

/-- Something that was found behind a text, with that text in front. -/
def Text.inFront {α : Type} (s : Text) (found : Text × α) : Text × α := (s ++ found.1, found.2)

theorem Text.map_inFront_nil {α : Type} (found : Option (Text × α)) :
    found.map (Text.inFront []) = found := by
  cases found <;> rfl

theorem Text.map_inFront_map {α : Type} (s t : Text) (found : Option (Text × α)) :
    (found.map (Text.inFront t)).map (Text.inFront s) = found.map (Text.inFront (s ++ t)) := by
  cases found with
  | none => rfl
  | some found =>
    exact congrArg (fun before => some (before, found.2)) (List.append_assoc _ _ _).symm

namespace Marker

/-- The marker begins nowhere in a text that has `after` behind it. -/
def Clear (m : Marker) : Text → Text → Prop
  | [], _ => True
  | c :: s, after => m.matchAt? (c :: (s ++ after)) = none ∧ Clear m s after

theorem find?_cons_of_none {m : Marker} {c : Char} {s : Text} (h : m.matchAt? (c :: s) = none) :
    m.find? (c :: s) = (m.find? s).map (Text.inFront [c]) := by
  rw [find?, h]
  rfl

/-- The search for a marker goes through a text in which it does not begin. -/
theorem find?_append {m : Marker} {s after : Text} (h : m.Clear s after) :
    m.find? (s ++ after) = (m.find? after).map (Text.inFront s) := by
  induction s with
  | nil => exact (Text.map_inFront_nil _).symm
  | cons c s ih =>
    show m.find? (c :: (s ++ after)) = _
    rw [find?_cons_of_none h.1, ih h.2, Text.map_inFront_map]
    rfl

/-- In front of the first match the marker begins nowhere. -/
theorem clear_of_find? {m : Marker} {s before : Text} {found : Match}
    (h : m.find? s = some (before, found)) :
    m.Clear before (found.lexeme ++ found.rest) ∧
      m.matchAt? (found.lexeme ++ found.rest) = some found := by
  induction s generalizing before with
  | nil => exact nomatch h
  | cons c s ih =>
    cases hat : m.matchAt? (c :: s) with
    | some found' =>
      rw [find?, hat] at h
      obtain ⟨rfl, rfl⟩ := Prod.mk.inj (Option.some.inj h)
      rw [← eq_append_of_matchAt? hat]
      exact ⟨trivial, hat⟩
    | none =>
      rw [find?_cons_of_none hat] at h
      obtain ⟨⟨before', found'⟩, hfound, hpair⟩ := Option.map_eq_some_iff.1 h
      obtain ⟨rfl, rfl⟩ := Prod.mk.inj hpair
      obtain ⟨hclear, hmatch⟩ := ih hfound
      refine ⟨⟨?_, hclear⟩, hmatch⟩
      show m.matchAt? (c :: (before' ++ (found'.lexeme ++ found'.rest))) = none
      rw [← List.append_assoc, ← eq_append_of_find? hfound]
      exact hat

theorem clear_of_find?_eq_none {m : Marker} {s : Text} (h : m.find? s = none) : m.Clear s [] := by
  induction s with
  | nil => trivial
  | cons c s ih =>
    cases hat : m.matchAt? (c :: s) with
    | some found =>
      rw [find?, hat] at h
      cases h
    | none =>
      rw [find?_cons_of_none hat] at h
      refine ⟨?_, ih (Option.map_eq_none_iff.1 h)⟩
      rw [List.append_nil]
      exact hat

theorem ne_nil_of_matchAt? {m : Marker} {s : Text} {found : Match} (h : m.matchAt? s = some found) :
    s ≠ [] := by
  intro hs
  rw [eq_append_of_matchAt? h] at hs
  exact lexeme_ne_nil h (List.append_eq_nil_iff.1 hs).1

theorem find?_of_matchAt? {m : Marker} {s : Text} {found : Match} (h : m.matchAt? s = some found) :
    m.find? s = some ([], found) := by
  obtain ⟨c, s, rfl⟩ := List.exists_cons_of_ne_nil (ne_nil_of_matchAt? h)
  rw [find?, h]

end Marker

namespace Rule

variable {r : Rule}

/-- The scan for the closing marker that balances a rule's own goes through a text, at any depth,
    and the depth behind it is as before. -/
def Passes (r : Rule) (s after : Text) : Prop :=
  ∀ depth, r.balance? depth (s ++ after) = (r.balance? depth after).map (Text.inFront s)

theorem passes_nil (r : Rule) (after : Text) : r.Passes [] after :=
  fun _ => (Text.map_inFront_nil _).symm

theorem Passes.append {s t after : Text} (hs : r.Passes s (t ++ after)) (ht : r.Passes t after) :
    r.Passes (s ++ t) after := by
  intro depth
  rw [List.append_assoc, hs depth, ht depth, Text.map_inFront_map]

theorem balance?_cons_of_none {c : Char} {s : Text} (hopening : r.opening.matchAt? (c :: s) = none)
    (hclosing : r.closing.matchAt? (c :: s) = none) (depth : Nat) :
    r.balance? depth (c :: s) = (r.balance? depth s).map (Text.inFront [c]) := by
  rw [balance?]
  split
  · next stop hc => cases hclosing.symm.trans hc
  · split
    · next start ho => cases hopening.symm.trans ho
    · rfl

/-- A text in which neither marker begins is gone through. -/
theorem passes_of_clear {s after : Text} (hopening : r.opening.Clear s after)
    (hclosing : r.closing.Clear s after) : r.Passes s after := by
  induction s with
  | nil => exact passes_nil r after
  | cons c s ih =>
    intro depth
    show r.balance? depth (c :: (s ++ after)) = _
    rw [balance?_cons_of_none hopening.1 hclosing.1, ih hopening.2 hclosing.2 depth,
      Text.map_inFront_map]
    rfl

theorem balance?_zero_of_matchAt? {s : Text} {stop : Match}
    (h : r.closing.matchAt? s = some stop) : r.balance? 0 s = some ([], stop) := by
  obtain ⟨c, s, rfl⟩ := List.exists_cons_of_ne_nil (Marker.ne_nil_of_matchAt? h)
  rw [balance?]
  split
  · next stop' hc => rw [Option.some.inj (h.symm.trans hc)]
  · next hc => cases h.symm.trans hc

theorem balance?_succ_of_matchAt? {s : Text} {stop : Match} (h : r.closing.matchAt? s = some stop)
    (depth : Nat) :
    r.balance? (depth + 1) s = (r.balance? depth stop.rest).map (Text.inFront stop.lexeme) := by
  obtain ⟨c, s, rfl⟩ := List.exists_cons_of_ne_nil (Marker.ne_nil_of_matchAt? h)
  rw [balance?]
  split
  · next stop' hc =>
    obtain rfl := Option.some.inj (h.symm.trans hc)
    rfl
  · next hc => cases h.symm.trans hc

theorem balance?_of_opening {s : Text} {start : Match} (hclosing : r.closing.matchAt? s = none)
    (hopening : r.opening.matchAt? s = some start) (depth : Nat) :
    r.balance? depth s = (r.balance? (depth + 1) start.rest).map (Text.inFront start.lexeme) := by
  obtain ⟨c, s, rfl⟩ := List.exists_cons_of_ne_nil (Marker.ne_nil_of_matchAt? hopening)
  rw [balance?]
  split
  · next stop hc => cases hclosing.symm.trans hc
  · split
    · next start' ho =>
      obtain rfl := Option.some.inj (hopening.symm.trans ho)
      rfl
    · next ho => cases hopening.symm.trans ho

/-- The inside of a leaf ends where the closing marker follows, if it begins nowhere before. -/
theorem close?_leaf {kind : LeafKind} {inner after : Text} {stop : Match} (hr : r.kind = .leaf kind)
    (hinner : r.closing.Clear inner after) (hstop : r.closing.matchAt? after = some stop) :
    r.close? (inner ++ after) = some (inner, stop) := by
  unfold close?
  rw [hr]
  show r.closing.find? (inner ++ after) = _
  rw [Marker.find?_append hinner, Marker.find?_of_matchAt? hstop]
  exact congrArg (fun inner => some (inner, stop)) (List.append_nil inner)

/-- The inside of a container ends where the closing marker follows, if the scan goes through it. -/
theorem close?_container {inner after : Text} {stop : Match} (hr : ∀ kind, r.kind ≠ .leaf kind)
    (hinner : r.Passes inner after) (hstop : r.closing.matchAt? after = some stop) :
    r.close? (inner ++ after) = some (inner, stop) := by
  have hclose : r.close? (inner ++ after) = r.balance? 0 (inner ++ after) := by
    unfold close?
    cases hk : r.kind with
    | leaf kind => exact absurd hk (hr kind)
    | collapsible | input => rfl
  rw [hclose, hinner 0, balance?_zero_of_matchAt? hstop]
  exact congrArg (fun inner => some (inner, stop)) (List.append_nil inner)

end Rule

/-! ### Segments -/

/-- Segments with a text in front that is not in a region. -/
def Segment.prepend (text : Text) : List Segment → List Segment
  | .plain next :: rest => .plain (text ++ next) :: rest
  | segments => Segment.plain? text ++ segments

namespace RegionGrammar

variable {g : RegionGrammar}

theorem nextOpening?_cons_of_none {c : Char} {s : Text} (h : g.openingAt? (c :: s) = none) :
    g.nextOpening? (c :: s) = (g.nextOpening? s).map (Text.inFront [c]) := by
  rw [nextOpening?, h]
  rfl

/-- The search for a region goes through a text in which no opening marker begins. -/
theorem nextOpening?_append {s after : Text} (h : ∀ r ∈ g.rules, r.opening.Clear s after) :
    g.nextOpening? (s ++ after) = (g.nextOpening? after).map (Text.inFront s) := by
  induction s with
  | nil => exact (Text.map_inFront_nil _).symm
  | cons c s ih =>
    have hnone : g.openingAt? (c :: (s ++ after)) = none := by
      refine List.findSome?_eq_none_iff.2 ?_
      intro r hr
      rw [(h r hr).1]
      rfl
    show g.nextOpening? (c :: (s ++ after)) = _
    rw [nextOpening?_cons_of_none hnone, ih fun r hr => (h r hr).2, Text.map_inFront_map]
    rfl

theorem nextOpening?_of_openingAt? {s : Text} {opened : Rule × Match}
    (h : g.openingAt? s = some opened) : g.nextOpening? s = some ([], opened) := by
  obtain ⟨r, -, hr⟩ := List.exists_of_findSome?_eq_some h
  obtain ⟨start, hat, -⟩ := Option.map_eq_some_iff.1 hr
  obtain ⟨c, s, rfl⟩ := List.exists_cons_of_ne_nil (Marker.ne_nil_of_matchAt? hat)
  rw [nextOpening?, h]

/-- In front of the first region no opening marker begins. -/
theorem clear_of_nextOpening? {s before : Text} {r : Rule} {start : Match}
    (h : g.nextOpening? s = some (before, r, start)) :
    (∀ r' ∈ g.rules, r'.opening.Clear before (start.lexeme ++ start.rest)) ∧
      g.openingAt? (start.lexeme ++ start.rest) = some (r, start) := by
  induction s generalizing before with
  | nil => exact nomatch h
  | cons c s ih =>
    cases hat : g.openingAt? (c :: s) with
    | some opened =>
      rw [nextOpening?_of_openingAt? hat] at h
      obtain ⟨rfl, rfl⟩ := Prod.mk.inj (Option.some.inj h)
      obtain ⟨r', -, hr'⟩ := List.exists_of_findSome?_eq_some hat
      obtain ⟨start', hmatch, hpair⟩ := Option.map_eq_some_iff.1 hr'
      obtain ⟨rfl, rfl⟩ := Prod.mk.inj hpair
      rw [← Marker.eq_append_of_matchAt? hmatch]
      exact ⟨fun _ _ => trivial, hat⟩
    | none =>
      rw [nextOpening?_cons_of_none hat] at h
      obtain ⟨⟨before', opened⟩, hnext, hpair⟩ := Option.map_eq_some_iff.1 h
      obtain ⟨rfl, rfl⟩ := Prod.mk.inj hpair
      obtain ⟨hclear, hopen⟩ := ih hnext
      refine ⟨fun r' hr' => ⟨?_, hclear r' hr'⟩, hopen⟩
      show r'.opening.matchAt? (c :: (before' ++ (start.lexeme ++ start.rest))) = none
      rw [← List.append_assoc, ← (eq_append_of_nextOpening? hnext).1]
      exact Option.map_eq_none_iff.1 (List.findSome?_eq_none_iff.1 hat r' hr')

theorem mem_rules_of_nextOpening? {s before : Text} {r : Rule} {start : Match}
    (h : g.nextOpening? s = some (before, r, start)) : r ∈ g.rules := by
  induction s generalizing before with
  | nil => exact nomatch h
  | cons c s ih =>
    cases hat : g.openingAt? (c :: s) with
    | some opened =>
      obtain ⟨r', hr', hopened⟩ := List.exists_of_findSome?_eq_some hat
      obtain ⟨start', -, hpair⟩ := Option.map_eq_some_iff.1 hopened
      have hfirst := Option.some.inj ((nextOpening?_of_openingAt? hat).symm.trans h)
      obtain ⟨rfl, -⟩ := Prod.mk.inj (hpair.trans (Prod.mk.inj hfirst).2)
      exact hr'
    | none =>
      rw [nextOpening?_cons_of_none hat] at h
      obtain ⟨⟨before', opened⟩, hnext, hpair⟩ := Option.map_eq_some_iff.1 h
      obtain ⟨-, rfl⟩ := Prod.mk.inj hpair
      exact ih hnext

theorem segments_of_nextOpening?_eq_none {s : Text} (h : g.nextOpening? s = none) :
    g.segments s = Segment.plain? s := by
  rw [segments]
  split
  · rfl
  · next hsome => cases h.symm.trans hsome

theorem segments_of_nextOpening? {s before : Text} {r : Rule} {start : Match}
    (h : g.nextOpening? s = some (before, r, start)) :
    g.segments s =
      Segment.plain? before ++ (r.region start).1 :: g.segments (r.region start).2 := by
  rw [segments]
  split
  · next hnone => cases h.symm.trans hnone
  · next before' r' start' hsome =>
    obtain ⟨rfl, hopened⟩ := Prod.mk.inj (Option.some.inj (h.symm.trans hsome))
    obtain ⟨rfl, rfl⟩ := Prod.mk.inj hopened
    rfl

theorem prepend_plain? (s t : Text) :
    Segment.prepend s (Segment.plain? t) = Segment.plain? (s ++ t) := by
  unfold Segment.plain?
  by_cases ht : t = []
  · rw [if_pos ht, ht, List.append_nil]
    exact List.append_nil _
  · rw [if_neg ht, if_neg fun h => ht (List.append_eq_nil_iff.1 h).2]
    rfl

theorem prepend_plain?_region (s t : Text) (r : Rule) (start : Match) (rest : List Segment) :
    Segment.prepend s (Segment.plain? t ++ (r.region start).1 :: rest) =
      Segment.plain? (s ++ t) ++ (r.region start).1 :: rest := by
  unfold Segment.plain?
  by_cases ht : t = []
  · rw [if_pos ht, ht, List.append_nil, List.nil_append]
    unfold Rule.region
    cases r.close? start.rest <;> rfl
  · rw [if_neg ht, if_neg fun h => ht (List.append_eq_nil_iff.1 h).2]
    rfl

/-- A text in which no region begins is put in front of the first segment. -/
theorem segments_append {s after : Text} (h : ∀ r ∈ g.rules, r.opening.Clear s after) :
    g.segments (s ++ after) = Segment.prepend s (g.segments after) := by
  have hnext := nextOpening?_append h
  cases hafter : g.nextOpening? after with
  | none =>
    rw [hafter] at hnext
    rw [segments_of_nextOpening?_eq_none hnext, segments_of_nextOpening?_eq_none hafter,
      prepend_plain?]
  | some opened =>
    obtain ⟨before, r, start⟩ := opened
    rw [hafter] at hnext
    rw [segments_of_nextOpening? hnext, segments_of_nextOpening? hafter, prepend_plain?_region]

/-- A region that begins at the front and is closed is the first segment. -/
theorem segments_of_close? {s inner : Text} {r : Rule} {start stop : Match}
    (hopen : g.openingAt? s = some (r, start)) (hclose : r.close? start.rest = some (inner, stop)) :
    g.segments s =
      .region r.kind start.title start.lexeme inner (some stop.lexeme) :: g.segments stop.rest := by
  have hregion : r.region start =
      (.region r.kind start.title start.lexeme inner (some stop.lexeme), stop.rest) := by
    unfold Rule.region
    rw [hclose]
  rw [segments_of_nextOpening? (nextOpening?_of_openingAt? hopen), hregion]
  rfl

end RegionGrammar

/-! ### The front of a marker -/

namespace Marker

/-- What a marker begins with, whatever it leaves room for. -/
def front : Marker → Text
  | literal text => text
  | details opening _ => opening
  | hintTag => "<hint".toList
  | fenceOpening | fenceClosing => []

theorem front_prefix_of_matchAt? {m : Marker} {s : Text} {found : Match}
    (h : m.matchAt? s = some found) : m.front <+: s := by
  have hscan := (Option.filter_eq_some_iff.1 h).1
  cases m with
  | literal text =>
    obtain ⟨rest, hrest, -⟩ := Option.map_eq_some_iff.1 hscan
    exact ⟨rest, (eq_append_of_isPrefixOf? hrest).symm⟩
  | details opening closing =>
    have hopening : scanDetails? opening closing s = some found := hscan
    unfold scanDetails? at hopening
    cases hrest : opening.isPrefixOf? s with
    | none =>
      rw [hrest] at hopening
      exact nomatch hopening
    | some rest => exact ⟨rest, (eq_append_of_isPrefixOf? hrest).symm⟩
  | hintTag =>
    have hopening : scanHintTag? s = some found := hscan
    unfold scanHintTag? at hopening
    cases hrest : "<hint".toList.isPrefixOf? s with
    | none =>
      rw [hrest] at hopening
      exact nomatch hopening
    | some rest => exact ⟨rest, (eq_append_of_isPrefixOf? hrest).symm⟩
  | fenceOpening | fenceClosing => exact List.nil_prefix

theorem matchAt?_eq_none_of_front {m : Marker} {s : Text} (h : ¬m.front <+: s) :
    m.matchAt? s = none := by
  cases hmatch : m.matchAt? s with
  | none => rfl
  | some found => exact absurd (front_prefix_of_matchAt? hmatch) h

/-- Where a marker begins nowhere, it begins nowhere with more text behind, as long as that does not
    complete what it begins with. -/
theorem Clear.append_right {m : Marker} {s after t : Text} (h : m.Clear s after)
    (hfront : ∀ x, x ≠ [] → x <:+ s → m.front <+: x ++ (after ++ t) →
      m.matchAt? (x ++ after) ≠ none) : m.Clear s (after ++ t) := by
  induction s with
  | nil => trivial
  | cons c s ih =>
    refine ⟨matchAt?_eq_none_of_front ?_, ih h.2 ?_⟩
    · intro hat
      exact hfront (c :: s) (List.cons_ne_nil c s) List.suffix_rfl hat h.1
    · intro x hne hx
      exact hfront x hne (hx.trans (List.suffix_cons c s))

/-- No place in a text can be where the marker begins, unless it begins there with all that is left
    of the text and goes on with a herald. -/
def Apart (m : Marker) (herald : Char) : Text → Prop
  | [] => True
  | c :: s =>
    (¬m.front <+: c :: s ∧ (c :: s <+: m.front → m.front[s.length + 1]? = some herald)) ∧
      Apart m herald s

instance decidableApart (m : Marker) (herald : Char) : (s : Text) → Decidable (m.Apart herald s)
  | [] => inferInstanceAs (Decidable True)
  | c :: s =>
    have := decidableApart m herald s
    inferInstanceAs (Decidable ((¬m.front <+: c :: s ∧
      (c :: s <+: m.front → m.front[s.length + 1]? = some herald)) ∧ m.Apart herald s))

theorem clear_of_apart {m : Marker} {herald : Char} {s after : Text} (h : m.Apart herald s)
    (hafter : after.head? ≠ some herald) : m.Clear s after := by
  induction s with
  | nil => trivial
  | cons c s ih =>
    obtain ⟨⟨hnot, hherald⟩, hs⟩ := h
    refine ⟨matchAt?_eq_none_of_front ?_, ih hs⟩
    intro hfront
    have hsplit : m.front <+: (c :: s) ++ after := hfront
    rcases List.prefix_or_prefix_of_prefix hsplit (List.prefix_append _ _) with hshort | hlong
    · exact hnot hshort
    · -- the marker would lie across the seam and go on with a herald
      have hnext := hherald hlong
      obtain ⟨u, hu⟩ := hlong
      rw [← hu] at hsplit hnext
      obtain ⟨v, hv⟩ := (List.prefix_append_right_inj _).1 hsplit
      have hplace : (c :: s ++ u)[(c :: s).length]? = u[0]? := by
        rw [List.getElem?_append_right (Nat.le_refl _), Nat.sub_self]
      have hu0 : u[0]? = some herald := hplace.symm.trans hnext
      cases u with
      | nil => exact nomatch hu0
      | cons x u =>
        rw [← hv] at hafter
        exact hafter hu0

end Marker

namespace Rule

theorem passes_of_apart {r : Rule} {herald : Char} {s after : Text}
    (hopening : r.opening.Apart herald s) (hclosing : r.closing.Apart herald s)
    (hafter : after.head? ≠ some herald) : r.Passes s after :=
  passes_of_clear (Marker.clear_of_apart hopening hafter) (Marker.clear_of_apart hclosing hafter)

end Rule

/-! ### Markers that show themselves -/

/-- A marker shows itself at once by a character that is not plain, or else by its second
    character. -/
def Marker.Heralded (m : Marker) (isPlain : Char → Bool) (herald : Char) : Prop :=
  ∀ c s found, m.matchAt? (c :: s) = some found → isPlain c = false ∨ s.head? = some herald

/-- Plain text is clear of such a marker where no herald follows. -/
theorem Marker.Heralded.clear {m : Marker} {isPlain : Char → Bool} {herald : Char}
    (h : m.Heralded isPlain herald) (hherald : isPlain herald = false) {s after : Text}
    (hs : ∀ c ∈ s, isPlain c = true) (hafter : after.head? ≠ some herald) : m.Clear s after := by
  induction s with
  | nil => trivial
  | cons c s ih =>
    obtain ⟨hc, hs⟩ := List.forall_mem_cons.1 hs
    refine ⟨?_, ih hs⟩
    cases hmatch : m.matchAt? (c :: (s ++ after)) with
    | none => rfl
    | some found =>
      exfalso
      rcases h c (s ++ after) found hmatch with hplain | hhead
      · rw [hc] at hplain
        exact nomatch hplain
      · cases s with
        | nil => exact hafter hhead
        | cons x s =>
          -- the second character is plain, so it is not the herald
          have hx := hs x List.mem_cons_self
          rw [Option.some.inj hhead, hherald] at hx
          exact nomatch hx

/-- Whether what a marker begins with shows it. -/
def Marker.showsFront (m : Marker) (isPlain : Char → Bool) (herald : Char) : Bool :=
  match m.front with
  | a :: b :: _ => !isPlain a || b == herald
  | _ => false

theorem Marker.heralded_of_showsFront {m : Marker} {isPlain : Char → Bool} {herald : Char}
    (h : m.showsFront isPlain herald = true) : m.Heralded isPlain herald := by
  intro c s found hfound
  obtain ⟨rest, hrest⟩ := front_prefix_of_matchAt? hfound
  unfold showsFront at h
  split at h
  · next a b text hfront =>
    rw [hfront] at hrest
    obtain ⟨rfl, rfl⟩ := List.cons.inj hrest
    rcases Bool.or_eq_true_iff.1 h with ha | hb
    · exact .inl (Bool.not_eq_true' _ ▸ ha)
    · exact .inr (congrArg some (eq_of_beq hb))
  · exact nomatch h

theorem Marker.heralded_fenceOpening {isPlain : Char → Bool} (hcr : isPlain '\r' = false)
    (hfence : isPlain '`' = false) : Marker.fenceOpening.Heralded isPlain '`' := by
  intro c s found hfound
  have hscan : scanFenceOpening? (c :: s) = some found := (Option.filter_eq_some_iff.1 hfound).1
  by_cases hc : c = '\r'
  · exact .inl (hc ▸ hcr)
  · have hfront : optional '\r' (c :: s) = [] := if_neg hc
    unfold scanFenceOpening? at hscan
    simp only [hfront, List.length_nil, List.drop_zero] at hscan
    cases hword : "```coq".toList.isPrefixOf? ((c :: s).drop (optional '\n' (c :: s)).length) with
    | none =>
      rw [hword] at hscan
      exact nomatch hscan
    | some rest =>
      have hrest := eq_append_of_isPrefixOf? hword
      by_cases hn : c = '\n'
      · have hlf : optional '\n' (c :: s) = ['\n'] := if_pos hn
        rw [hlf] at hrest
        have hs : s = "```coq".toList ++ rest := hrest
        rw [hs]
        exact .inr rfl
      · have hlf : optional '\n' (c :: s) = [] := if_neg hn
        rw [hlf] at hrest
        have hc : c = '`' := (List.cons.inj hrest).1
        exact .inl (hc ▸ hfence)

theorem Marker.heralded_fenceClosing {isPlain : Char → Bool} (hcr : isPlain '\r' = false) :
    Marker.fenceClosing.Heralded isPlain '`' := by
  intro c s found hfound
  have hscan : scanFenceClosing? (c :: s) = some found := (Option.filter_eq_some_iff.1 hfound).1
  by_cases hc : c = '\r'
  · exact .inl (hc ▸ hcr)
  · unfold scanFenceClosing? at hscan
    by_cases hn : c = '\n'
    · subst hn
      have hfront : lineEnd ('\n' :: s) = ['\n'] := rfl
      simp only [hfront, List.cons_ne_nil, if_false] at hscan
      obtain ⟨rest, hrest, -⟩ := Option.map_eq_some_iff.1 hscan
      have hs : s = "```".toList ++ rest := eq_append_of_isPrefixOf? hrest
      rw [hs]
      exact .inr rfl
    · -- any other character ends no line
      have hfront : lineEnd (c :: s) = [] := by
        unfold lineEnd
        split
        · next h => exact absurd (List.cons.inj h).1 hn
        · next h => exact absurd (List.cons.inj h).1 hc
        · rfl
      simp only [hfront, if_true] at hscan
      exact nomatch hscan

end Worksheet
