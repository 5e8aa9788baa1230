import Mathlib.Data.List.Forall2
import Mathlib.Data.List.TakeWhile
import Worksheet.Proofs.Area.Numbering
import Worksheet.Proofs.Text.Lines
import Worksheet.Reading

/-! # Accounting for every line

  Reading blocks uses every line of a text once. Each leaf takes a stretch of lines, and the
  stretches follow one another as the leaves do. A line that is in no stretch is blank, opens or
  closes a block, or names a title. The relations `Block.LeavesAt` and `Block.AreasAt` follow the
  reader through the text and say what it has made of each line; what they say about all lines at
  once is `Block.accounts_parse`.
-/

namespace Worksheet

/-! ### Stretches of lines -/

/-- Lines that follow one another: from `start` on, and before `stop`. -/
structure Stretch where
  start : Nat
  stop : Nat
deriving DecidableEq

namespace Stretch

def lines (x : Stretch) (ls : List Text) : List Text := (ls.drop x.start).take (x.stop - x.start)

def Holds (x : Stretch) (i : Nat) : Prop := x.start ≤ i ∧ i < x.stop

instance (x : Stretch) (i : Nat) : Decidable (x.Holds i) :=
  inferInstanceAs (Decidable (x.start ≤ i ∧ i < x.stop))

/-- The stretch of lines that a scan takes, and where it goes on. -/
theorem of_drop {ls taken left : List Text} {a : Nat} (h : ls.drop a = taken ++ left)
    (ha : a ≤ ls.length) :
    (Stretch.mk a (a + taken.length)).lines ls = taken ∧ ls.drop (a + taken.length) = left ∧
      a + taken.length ≤ ls.length := by
  refine ⟨?_, ?_, ?_⟩
  · unfold lines
    rw [h, Nat.add_sub_cancel_left, List.take_left]
  · rw [← List.drop_drop, h, List.drop_left]
  · have hlength := congrArg List.length h
    rw [List.length_drop, List.length_append] at hlength
    omega

end Stretch

theorem Text.of_drop_cons {ls rest : List Text} {line : Text} {a : Nat}
    (h : ls.drop a = line :: rest) :
    ls[a]? = some line ∧ a < ls.length ∧ ls.drop (a + 1) = rest := by
  have hline : ls[a]? = some line := by
    rw [← List.head?_drop, h]
    rfl
  refine ⟨hline, (List.getElem?_eq_some_iff.1 hline).1, ?_⟩
  rw [← List.drop_drop, h]
  rfl

namespace Block

/-! ### Where leaves and areas are -/

/-- What opens a container. -/
def Opener.isContainer : Opener → Bool
  | leaf _ => false
  | collapsible | input => true

/-- A stretch is all lines of a leaf of a kind. -/
inductive IsLeafOf (ls : List Text) (x : Stretch) : LeafKind → Prop where
  /-- A block: behind its opener, up to its closer or the end of the text. -/
  | block {kind : LeafKind} {a : Nat} {line : Text} :
      x.start = a + 1 → ls[a]? = some line → opener? line = some (.leaf kind) →
      (∀ line ∈ x.lines ls, isCloser line = false) →
      (∀ line, ls[x.stop]? = some line → isCloser line = true) → IsLeafOf ls x kind
  /-- Loose lines. -/
  | loose : x.start < x.stop →
      (∀ line ∈ x.lines ls, Text.isBlank line = false ∧ opener? line = none) → IsLeafOf ls x .text
  /-- A container inside a container, with its opener. -/
  | nested {line : Text} {o : Opener} : x.start < x.stop → ls[x.start]? = some line →
      opener? line = some o → o.isContainer = true → IsLeafOf ls x .text

/-- A leaf is read from a stretch of lines. -/
structure LeafAt (ls : List Text) (x : Stretch) (s : LeafShape) : Prop where
  start_le_stop : x.start ≤ x.stop
  stop_le_length : x.stop ≤ ls.length
  content_eq : s.content = Text.joinLines (x.lines ls)
  isLeafOf : IsLeafOf ls x s.kind

/-- A line that need not be in a leaf: blank, or one that opens or closes a block. -/
def IsSpare (line : Text) : Prop :=
  Text.isBlank line = true ∨ (opener? line).isSome = true ∨ isCloser line = true

/-- From line `a` up to line `b` leaves are read, each from its stretch, and all other lines are
    spare. -/
inductive LeavesAt (ls : List Text) : (a : Nat) → List Stretch → List LeafShape → (b : Nat) → Prop
  | nil (a : Nat) : LeavesAt ls a [] [] a
  | skip {a b : Nat} {xs : List Stretch} {leaves : List LeafShape} :
      (∀ line, ls[a]? = some line → IsSpare line) → LeavesAt ls (a + 1) xs leaves b →
      LeavesAt ls a xs leaves b
  | leaf {x : Stretch} {s : LeafShape} {b : Nat} {xs : List Stretch} {leaves : List LeafShape} :
      LeafAt ls x s → LeavesAt ls x.stop xs leaves b →
      LeavesAt ls x.start (x :: xs) (s :: leaves) b

/-- The heading of a container is read from line `a` on, and what is in the container from line `b`
    on. -/
inductive HeadingAt (ls : List Text) (a : Nat) : Heading → (b : Nat) → Prop where
  | input {line : Text} : ls[a]? = some line → opener? line = some .input →
      HeadingAt ls a (.input .unattempted) (a + 1)
  | untitled {line : Text} : ls[a]? = some line → opener? line = some .collapsible →
      HeadingAt ls a (.collapsible []) (a + 1)
  | titled {line next title : Text} : ls[a]? = some line → opener? line = some .collapsible →
      ls[a + 1]? = some next → title? next = some title →
      HeadingAt ls a (.collapsible title) (a + 2)

/-- Where an area is in a text. -/
structure Place where
  /-- The line that it begins with. -/
  first : Nat
  /-- The stretches of its leaves. -/
  leaves : List Stretch
deriving DecidableEq

/-- From line `a` on areas are read, each at its place, and all lines between them are blank. -/
inductive AreasAt (ls : List Text) : (a : Nat) → List Place → List Shape → Prop
  | nil {a : Nat} : ls.length ≤ a → AreasAt ls a [] []
  | blank {a : Nat} {line : Text} {places : List Place} {shapes : List Shape} :
      ls[a]? = some line → Text.isBlank line = true → AreasAt ls (a + 1) places shapes →
      AreasAt ls a places shapes
  | leaf {a b : Nat} {x : Stretch} {s : LeafShape} {places : List Place} {shapes : List Shape} :
      LeavesAt ls a [x] [s] b → AreasAt ls b places shapes →
      AreasAt ls a (⟨a, [x]⟩ :: places) (.leaf s :: shapes)
  | container {a b c : Nat} {heading : Heading} {xs : List Stretch} {leaves : List LeafShape}
      {places : List Place} {shapes : List Shape} :
      HeadingAt ls a heading b → LeavesAt ls b xs leaves c → AreasAt ls c places shapes →
      AreasAt ls a (⟨a, xs⟩ :: places) (.container heading leaves :: shapes)

/-! ### Reading leaves -/

section

variable {ls rest : List Text} {line : Text} {a b c : Nat} {xs ys : List Stretch}
  {leaves others : List LeafShape}

theorem LeavesAt.append (h : LeavesAt ls a xs leaves b) (h' : LeavesAt ls b ys others c) :
    LeavesAt ls a (xs ++ ys) (leaves ++ others) c := by
  induction h with
  | nil a => exact h'
  | skip hspare _ ih => exact .skip hspare (ih h')
  | leaf hleaf _ ih => exact .leaf hleaf (ih h')

theorem LeavesAt.single {s : LeafShape} (h : LeafAt ls ⟨a, b⟩ s) : LeavesAt ls a [⟨a, b⟩] [s] b :=
  .leaf h (.nil b)

/-- A block takes its opener, its stretch and its closer. -/
theorem exists_block {kind : LeafKind} (h : ls.drop a = line :: rest)
    (hopen : opener? line = some (.leaf kind)) :
    ∃ x b, LeavesAt ls a [x] [⟨kind, Text.joinLines (body rest)⟩] b ∧
      ls.drop b = (behindBody rest).drop 1 := by
  obtain ⟨hline, hlt, hrest⟩ := Text.of_drop_cons h
  rw [← body_append_behindBody rest] at hrest
  obtain ⟨hlines, hleft, hstop⟩ := Stretch.of_drop hrest hlt
  refine ⟨⟨a + 1, a + 1 + (body rest).length⟩, a + 1 + (body rest).length + 1, ?_, ?_⟩
  · have hclose : ∀ next, ls[a + 1 + (body rest).length]? = some next → isCloser next = true := by
      intro next hnext
      have hhead := List.head?_dropWhile_not (fun line => !isCloser line) rest
      rw [← List.head?_drop, hleft] at hnext
      unfold behindBody at hnext
      rw [hnext] at hhead
      simpa using hhead
    have hbody : ∀ next ∈ (Stretch.mk (a + 1) (a + 1 + (body rest).length)).lines ls,
        isCloser next = false := by
      rw [hlines]
      intro next hnext
      simpa using List.mem_takeWhile_imp hnext
    have hleaf : LeafAt ls ⟨a + 1, a + 1 + (body rest).length⟩
        ⟨kind, Text.joinLines (body rest)⟩ :=
      ⟨Nat.le_add_right _ _, hstop, congrArg Text.joinLines hlines.symm,
        .block rfl hline hopen hbody hclose⟩
    -- the opener, the lines up to the closer, and the closer, if there is one
    refine .skip ?_ (.leaf hleaf (.skip ?_ (.nil _)))
    · intro opener hopener
      rw [hline] at hopener
      obtain rfl := Option.some.inj hopener
      exact .inr (.inl (Option.isSome_iff_exists.2 ⟨_, hopen⟩))
    · exact fun next hnext => .inr (.inr (hclose next hnext))
  · rw [← List.drop_drop, hleft]

theorem exists_loose (h : ls.drop a = line :: rest) (hopen : opener? line = none)
    (hblank : Text.isBlank line = false) :
    ∃ x b, LeavesAt ls a [x] [⟨.text, Text.joinLines (line :: rest.takeWhile isLoose)⟩] b ∧
      ls.drop b = rest.dropWhile isLoose := by
  obtain ⟨-, hlt, -⟩ := Text.of_drop_cons h
  have hsplit : ls.drop a = (line :: rest.takeWhile isLoose) ++ rest.dropWhile isLoose := by
    rw [h, List.cons_append, List.takeWhile_append_dropWhile]
  obtain ⟨hlines, hleft, hstop⟩ := Stretch.of_drop hsplit hlt.le
  refine ⟨⟨a, a + (line :: rest.takeWhile isLoose).length⟩, _, .single ?_, hleft⟩
  refine ⟨Nat.le_add_right _ _, hstop, congrArg Text.joinLines hlines.symm, .loose ?_ ?_⟩
  · simp
  · rw [hlines]
    refine List.forall_mem_cons.2 ⟨⟨hblank, hopen⟩, ?_⟩
    intro next hnext
    have hloose := List.mem_takeWhile_imp hnext
    simp only [isLoose, Bool.and_eq_true, Bool.not_eq_true', Option.isNone_iff_eq_none] at hloose
    exact ⟨hloose.1.1, hloose.2⟩

theorem exists_nested {o : Opener} (h : ls.drop a = line :: rest) (hopen : opener? line = some o)
    (ho : o.isContainer = true) :
    ∃ x b, LeavesAt ls a [x] [⟨.text, Text.joinLines (line :: (innerContainer rest).1)⟩] b ∧
      ls.drop b = (innerContainer rest).2 := by
  obtain ⟨hline, hlt, -⟩ := Text.of_drop_cons h
  have hsplit : ls.drop a = (line :: (innerContainer rest).1) ++ (innerContainer rest).2 := by
    rw [h, List.cons_append, innerContainer_append]
  obtain ⟨hlines, hleft, hstop⟩ := Stretch.of_drop hsplit hlt.le
  refine ⟨⟨a, a + (line :: (innerContainer rest).1).length⟩, _, .single ?_, hleft⟩
  refine ⟨Nat.le_add_right _ _, hstop, congrArg Text.joinLines hlines.symm,
    .nested ?_ hline hopen ho⟩
  simp

/-- The children of a container are read one after the other, up to the closer of the container. -/
theorem exists_leavesAt_children {lines : List Text} (h : ls.drop a = lines) :
    ∃ xs b, LeavesAt ls a xs (children lines).1 b ∧ ls.drop b = (children lines).2 := by
  fun_induction children lines generalizing a with
  | case1 => exact ⟨[], a, .nil a, h⟩
  | case2 line rest hc =>
    obtain ⟨hline, -, hrest⟩ := Text.of_drop_cons h
    refine ⟨[], a + 1, .skip ?_ (.nil _), hrest⟩
    intro closer hcloser
    rw [hline] at hcloser
    obtain rfl := Option.some.inj hcloser
    exact .inr (.inr hc)
  | case3 line rest hc kind hk leaves after hl ih =>
    obtain ⟨x, b, hleaf, hb⟩ := exists_block h hk
    obtain ⟨xs, c, hleaves, hafter⟩ := ih hb
    rw [hl] at hleaves hafter
    exact ⟨x :: xs, c, hleaf.append hleaves, hafter⟩
  | case4 line rest hc o hne hk leaves after hl ih =>
    have ho : o.isContainer = true := by
      cases o with
      | leaf kind => exact (hne kind rfl).elim
      | collapsible | input => rfl
    obtain ⟨x, b, hleaf, hb⟩ := exists_nested h hk ho
    obtain ⟨xs, c, hleaves, hafter⟩ := ih hb
    rw [hl] at hleaves hafter
    exact ⟨x :: xs, c, hleaf.append hleaves, hafter⟩
  | case5 line rest hc hk hb ih =>
    obtain ⟨hline, -, hrest⟩ := Text.of_drop_cons h
    obtain ⟨xs, c, hleaves, hafter⟩ := ih hrest
    refine ⟨xs, c, .skip ?_ hleaves, hafter⟩
    intro blank hblank
    rw [hline] at hblank
    obtain rfl := Option.some.inj hblank
    exact .inl hb
  | case6 line rest hc hk hb leaves after hl ih =>
    obtain ⟨x, b, hleaf, hb⟩ := exists_loose h hk (Bool.eq_false_iff.2 hb)
    obtain ⟨xs, c, hleaves, hafter⟩ := ih hb
    rw [hl] at hleaves hafter
    exact ⟨x :: xs, c, hleaf.append hleaves, hafter⟩

/-! ### Reading areas -/

/-- A collapsible is read with the title that the line behind its opener names, if it does. -/
theorem exists_headingAt_collapsible (h : ls.drop a = line :: rest)
    (hopen : opener? line = some .collapsible) :
    ∃ b, HeadingAt ls a (.collapsible (heading rest).1) b ∧ ls.drop b = (heading rest).2 := by
  obtain ⟨hline, -, hrest⟩ := Text.of_drop_cons h
  cases rest with
  | nil => exact ⟨a + 1, .untitled hline hopen, hrest⟩
  | cons next rest =>
    obtain ⟨hnext, -, hafter⟩ := Text.of_drop_cons hrest
    cases htitle : title? next with
    | none =>
      have hheading : heading (next :: rest) = ([], next :: rest) := by rw [heading, htitle]
      rw [hheading]
      exact ⟨a + 1, .untitled hline hopen, hrest⟩
    | some title =>
      have hheading : heading (next :: rest) = (title, rest) := by rw [heading, htitle]
      rw [hheading]
      exact ⟨a + 2, .titled hline hopen hnext htitle, hafter⟩

/-- The areas of a text are read one after the other, up to its end. -/
theorem exists_areasAt_readLines {lines : List Text} (h : ls.drop a = lines) :
    ∃ places, AreasAt ls a places (readLines lines) := by
  fun_induction readLines lines generalizing a with
  | case1 => exact ⟨[], .nil (List.drop_eq_nil_iff.1 h)⟩
  | case2 line rest kind hk ih =>
    obtain ⟨x, b, hleaf, hb⟩ := exists_block h hk
    obtain ⟨places, hareas⟩ := ih hb
    exact ⟨_, .leaf hleaf hareas⟩
  | @case3 line rest hk inside ih =>
    obtain ⟨b, hheading, hb⟩ := exists_headingAt_collapsible h hk
    obtain ⟨xs, c, hleaves, hc⟩ := exists_leavesAt_children hb
    obtain ⟨places, hareas⟩ := ih hc
    exact ⟨_, .container hheading hleaves hareas⟩
  | @case4 line rest hk inside ih =>
    obtain ⟨hline, -, hrest⟩ := Text.of_drop_cons h
    obtain ⟨xs, c, hleaves, hc⟩ := exists_leavesAt_children hrest
    obtain ⟨places, hareas⟩ := ih hc
    exact ⟨_, .container (.input hline hk) hleaves hareas⟩
  | case5 line rest hk hb ih =>
    obtain ⟨hline, -, hrest⟩ := Text.of_drop_cons h
    obtain ⟨places, hareas⟩ := ih hrest
    exact ⟨places, .blank hline hb hareas⟩
  | case6 line rest hk hb ih =>
    obtain ⟨x, b, hleaf, hb⟩ := exists_loose h hk (Bool.eq_false_iff.2 hb)
    obtain ⟨places, hareas⟩ := ih hb
    exact ⟨_, .leaf hleaf hareas⟩

/-! ### What that says of all lines -/

theorem LeavesAt.forall₂ (h : LeavesAt ls a xs leaves b) : List.Forall₂ (LeafAt ls) xs leaves := by
  induction h with
  | nil a => exact .nil
  | skip _ _ ih => exact ih
  | leaf hleaf _ ih => exact .cons hleaf ih

theorem LeavesAt.le (h : LeavesAt ls a xs leaves b) : a ≤ b := by
  induction h with
  | nil a => exact Nat.le_refl a
  | skip _ _ ih => omega
  | leaf hleaf _ ih => exact hleaf.start_le_stop.trans ih

theorem LeavesAt.within (h : LeavesAt ls a xs leaves b) : ∀ x ∈ xs, a ≤ x.start ∧ x.stop ≤ b := by
  induction h with
  | nil a => exact nofun
  | skip _ _ ih =>
    intro x hx
    have := ih x hx
    omega
  | leaf hleaf hrest ih =>
    refine List.forall_mem_cons.2 ⟨⟨Nat.le_refl _, hrest.le⟩, ?_⟩
    intro y hy
    exact ⟨hleaf.start_le_stop.trans (ih y hy).1, (ih y hy).2⟩

/-- The stretches of leaves follow one another. -/
theorem LeavesAt.pairwise (h : LeavesAt ls a xs leaves b) :
    xs.Pairwise fun x y => x.stop ≤ y.start := by
  induction h with
  | nil a => exact .nil
  | skip _ _ ih => exact ih
  | leaf _ hrest ih => exact .cons (fun y hy => (hrest.within y hy).1) ih

/-- Every line is in the stretch of a leaf or spare. -/
theorem LeavesAt.covers (h : LeavesAt ls a xs leaves b) {i : Nat} (ha : a ≤ i) (hb : i < b)
    (hline : ls[i]? = some line) : (∃ x ∈ xs, x.Holds i) ∨ IsSpare line := by
  induction h with
  | nil a => omega
  | @skip a b xs leaves hspare hrest ih =>
    rcases Nat.eq_or_lt_of_le ha with rfl | ha
    · exact .inr (hspare line hline)
    · exact ih ha hb
  | @leaf x s b xs leaves hleaf hrest ih =>
    by_cases hstop : i < x.stop
    · exact .inl ⟨x, List.mem_cons_self, ha, hstop⟩
    · exact (ih (Nat.le_of_not_lt hstop) hb).imp_left fun ⟨y, hy, hi⟩ =>
        ⟨y, List.mem_cons_of_mem x hy, hi⟩

end

end Block

/-- The leaves that are an area or in it. -/
def Shape.leaves : Shape → List LeafShape
  | leaf s => [s]
  | container _ children => children

namespace Block

section

variable {ls : List Text} {a : Nat} {places : List Place} {shapes : List Shape}

/-- The leaves of each area are read from the stretches at its place. -/
theorem AreasAt.forall₂ (h : AreasAt ls a places shapes) :
    List.Forall₂ (fun place s => List.Forall₂ (LeafAt ls) place.leaves s.leaves) places shapes := by
  induction h with
  | nil _ => exact .nil
  | blank _ _ _ ih => exact ih
  | leaf hleaf _ ih => exact .cons hleaf.forall₂ ih
  | container _ hleaves _ ih => exact .cons hleaves.forall₂ ih

theorem HeadingAt.lt {heading : Heading} {b : Nat} (h : HeadingAt ls a heading b) : a < b := by
  cases h <;> omega

theorem AreasAt.within (h : AreasAt ls a places shapes) :
    ∀ p ∈ places, a ≤ p.first ∧ ∀ x ∈ p.leaves, p.first ≤ x.start := by
  induction h with
  | nil _ => exact nofun
  | blank _ _ _ ih =>
    intro p hp
    have := (ih p hp).1
    exact ⟨by omega, (ih p hp).2⟩
  | leaf hleaf _ ih =>
    refine List.forall_mem_cons.2 ⟨⟨Nat.le_refl _, fun x hx => (hleaf.within x hx).1⟩, ?_⟩
    exact fun p hp => ⟨hleaf.le.trans (ih p hp).1, (ih p hp).2⟩
  | container hheading hleaves _ ih =>
    have hle := hheading.lt.le
    refine List.forall_mem_cons.2
      ⟨⟨Nat.le_refl _, fun x hx => hle.trans (hleaves.within x hx).1⟩, ?_⟩
    exact fun p hp => ⟨hle.trans (hleaves.le.trans (ih p hp).1), (ih p hp).2⟩

/-- Each area begins behind the areas before it. -/
theorem AreasAt.pairwise_place (h : AreasAt ls a places shapes) :
    places.Pairwise fun p q => p.first ≤ q.first ∧ ∀ x ∈ p.leaves, x.stop ≤ q.first := by
  induction h with
  | nil _ => exact .nil
  | blank _ _ _ ih => exact ih
  | leaf hleaf hrest ih =>
    refine .cons (fun q hq => ?_) ih
    have hfirst := (hrest.within q hq).1
    exact ⟨hleaf.le.trans hfirst, fun x hx => (hleaf.within x hx).2.trans hfirst⟩
  | container hheading hleaves hrest ih =>
    refine .cons (fun q hq => ?_) ih
    have hfirst := (hrest.within q hq).1
    exact ⟨hheading.lt.le.trans (hleaves.le.trans hfirst),
      fun x hx => (hleaves.within x hx).2.trans hfirst⟩

/-- The stretches of all leaves follow one another. -/
theorem AreasAt.pairwise (h : AreasAt ls a places shapes) :
    (places.flatMap Place.leaves).Pairwise fun x y => x.stop ≤ y.start := by
  induction h with
  | nil _ => exact .nil
  | blank _ _ _ ih => exact ih
  | leaf hleaves hrest ih | container _ hleaves hrest ih =>
    -- the next area begins behind the last leaf of this one
    refine List.pairwise_append.2 ⟨hleaves.pairwise, ih, ?_⟩
    intro x hx y hy
    obtain ⟨p, hp, hy⟩ := List.mem_flatMap.1 hy
    have hfirst := hrest.within p hp
    exact (hleaves.within x hx).2.trans (hfirst.1.trans (hfirst.2 y hy))

/-- Line `i` names the title of one of the areas, right behind the opener of the area. -/
def NamesTitle (ls : List Text) (places : List Place) (shapes : List Shape) (i : Nat) : Prop :=
  ∃ place title children opener line,
    (place, Shape.container (.collapsible title) children) ∈ places.zip shapes ∧
    ls[place.first]? = some opener ∧ opener? opener = some .collapsible ∧
    i = place.first + 1 ∧ ls[i]? = some line ∧ title? line = some title

theorem NamesTitle.cons {i : Nat} (h : NamesTitle ls places shapes i) (place : Place) (s : Shape) :
    NamesTitle ls (place :: places) (s :: shapes) i := by
  obtain ⟨place', title, children, opener, line, hmem, h⟩ := h
  exact ⟨place', title, children, opener, line, List.mem_cons_of_mem _ hmem, h⟩

/-- The lines of a heading: the opener, and behind it perhaps the line with the title. -/
theorem HeadingAt.covers {heading : Heading} {b i : Nat} {line : Text}
    (h : HeadingAt ls a heading b) (ha : a ≤ i) (hb : i < b) (hline : ls[i]? = some line)
    (xs : List Stretch) (children : List LeafShape) :
    IsSpare line ∨
      NamesTitle ls (⟨a, xs⟩ :: places) (.container heading children :: shapes) i := by
  have hopener : ∀ {opener : Text} {o : Opener}, ls[a]? = some opener → opener? opener = some o →
      i = a → IsSpare line := by
    rintro opener o hline' ho rfl
    obtain rfl := Option.some.inj (hline'.symm.trans hline)
    exact .inr (.inl (Option.isSome_iff_exists.2 ⟨o, ho⟩))
  cases h with
  | input hline' ho | untitled hline' ho => exact .inl (hopener hline' ho (by omega))
  | @titled opener next title hline' ho hnext htitle =>
    rcases Nat.eq_or_lt_of_le ha with hi | hi
    · exact .inl (hopener hline' ho hi.symm)
    · obtain rfl : i = a + 1 := by omega
      exact .inr ⟨_, title, children, opener, next, List.mem_cons_self, hline', ho, rfl, hnext,
        htitle⟩

/-- Every line is in the stretch of a leaf, or spare, or names a title. -/
theorem AreasAt.covers (h : AreasAt ls a places shapes) {i : Nat} {line : Text} (ha : a ≤ i)
    (hline : ls[i]? = some line) :
    (∃ x ∈ places.flatMap Place.leaves, x.Holds i) ∨ IsSpare line ∨
      NamesTitle ls places shapes i := by
  induction h with
  | nil hend =>
    have := (List.getElem?_eq_some_iff.1 hline).1
    omega
  | blank hblank hb _ ih =>
    rcases Nat.eq_or_lt_of_le ha with rfl | ha
    · obtain rfl := Option.some.inj (hblank.symm.trans hline)
      exact .inr (.inl (.inl hb))
    · exact ih ha
  | @leaf a b x s places shapes hleaf _ ih =>
    by_cases hb : i < b
    · exact (hleaf.covers ha hb hline).imp (fun ⟨y, hy, hi⟩ => ⟨y, List.mem_append_left _ hy, hi⟩)
        .inl
    · exact (ih (Nat.le_of_not_lt hb)).imp (fun ⟨y, hy, hi⟩ => ⟨y, List.mem_append_right _ hy, hi⟩)
        (.imp_right fun h => h.cons _ _)
  | @container a b c heading xs leaves places shapes hheading hleaves _ ih =>
    -- the line is in the heading, among the children, or behind the container
    by_cases hb : i < b
    · exact .inr (hheading.covers ha hb hline xs leaves)
    by_cases hc : i < c
    · exact (hleaves.covers (Nat.le_of_not_lt hb) hc hline).imp
        (fun ⟨y, hy, hi⟩ => ⟨y, List.mem_append_left _ hy, hi⟩) .inl
    · exact (ih (Nat.le_of_not_lt hc)).imp (fun ⟨y, hy, hi⟩ => ⟨y, List.mem_append_right _ hy, hi⟩)
        (.imp_right fun h => h.cons _ _)

end

end Block

end Worksheet
