import Mathlib.Data.List.Forall2
import Mathlib.Data.List.Infix
import Worksheet.Outline

/-! # One line for each area

  Contents, titles and the uri are texts of any number of lines, and the lines of an outline are
  written by two recursions, over the areas and over the children of each. Still an outline has one
  line for each area, in document order (`Outline.forall₂_areaLines`), and a line closes a list of
  siblings exactly if it is that of the last one. Nothing that stands in front of a label has a line
  feed in it, and labels have theirs drawn.
-/

namespace Worksheet

/-- A line feed is at the end and nowhere else. -/
def Text.IsLine (s : Text) : Prop := ∃ row, s = row ++ ['\n'] ∧ '\n' ∉ row

/-- The text that stands for an area in an outline. -/
def Entry.caption : Entry → Text
  | top (.leaf l) => l.content
  | top (.container c) =>
    match c.heading with
    | .collapsible title => if title = [] then "(untitled)".toList else title
    | .input grade => grade.name.toList
  | child _ l => l.content

namespace Outline

/-! ### Labels -/

/-- A text with its line feeds drawn. -/
def drawn (s : Text) : Text := s.map fun c => if c = '\n' then '⏎' else c

theorem not_mem_drawn (s : Text) : '\n' ∉ drawn s := by
  intro h
  obtain ⟨c, -, hc⟩ := List.mem_map.1 h
  by_cases hlf : c = '\n'
  · rw [if_pos hlf] at hc
    exact absurd hc (by decide)
  · rw [if_neg hlf] at hc
    exact hlf hc

/-- A label has the first characters of a text, thirty at most, and three dots behind them exactly
    if there are more. -/
def Abbreviates (label s : Text) : Prop :=
  ∃ shown cut, drawn s = shown ++ cut ∧ shown.length ≤ 30 ∧ (cut ≠ [] → shown.length = 30) ∧
    label = shown ++ if cut = [] then [] else "...".toList

theorem abbreviates_iff {label s : Text} : Abbreviates label s ↔ label = labelOf s := by
  have hlabel : labelOf s = truncate (drawn s) := rfl
  rw [hlabel, truncate, labelWidth]
  constructor
  · rintro ⟨shown, cut, hdrawn, hle, hfull, rfl⟩
    by_cases hcut : cut = []
    · rw [if_pos hcut, hdrawn, hcut, List.append_nil, if_pos hle]
    · have hpos := List.length_pos_iff.2 hcut
      have hlong : ¬ (shown ++ cut).length ≤ 30 := by
        rw [List.length_append, hfull hcut]
        omega
      rw [if_neg hcut, hdrawn, if_neg hlong, ← hfull hcut, List.take_left]
  · intro h
    by_cases hle : (drawn s).length ≤ 30
    · rw [if_pos hle] at h
      exact ⟨drawn s, [], by simp, hle, fun hne => absurd rfl hne, by simp [h]⟩
    · rw [if_neg hle] at h
      have hlength : ((drawn s).take 30).length = 30 := by
        rw [List.length_take]
        omega
      have hcut : (drawn s).drop 30 ≠ [] := by
        intro hnil
        rw [List.drop_eq_nil_iff] at hnil
        omega
      refine ⟨(drawn s).take 30, (drawn s).drop 30, (List.take_append_drop 30 _).symm,
        hlength.le, fun _ => hlength, ?_⟩
      rw [if_neg hcut, h]

theorem not_mem_labelOf (s : Text) : '\n' ∉ labelOf s := by
  have hlabel : labelOf s = truncate (drawn s) := rfl
  rw [hlabel, truncate]
  split
  · exact not_mem_drawn s
  · intro h
    rcases List.mem_append.1 h with h | h
    · exact not_mem_drawn s (List.mem_of_mem_take h)
    · exact absurd h (by decide)

/-- An area is labelled with what stands for it. -/
theorem label_eq (a : Area) : label a = labelOf (Entry.top a).caption := by
  cases a with
  | leaf l => rfl
  | container c =>
    obtain ⟨id, heading, children, range⟩ := c
    cases heading <;> rfl

/-! ### What stands in front of a label -/

theorem not_mem_decimal (n : Nat) : '\n' ∉ decimal n := by
  intro h
  exact absurd (Nat.isDigit_of_mem_toDigits (by decide) (by decide) h) (by decide)

theorem not_mem_display (p : Position) : '\n' ∉ p.display := by
  simp [Position.display, not_mem_decimal]

theorem not_mem_rangeColumn (showRanges : Bool) (range : Option Range) :
    '\n' ∉ rangeColumn showRanges range := by
  cases showRanges with
  | false => exact List.not_mem_nil
  | true =>
    cases range with
    | none => decide
    | some r => simp [rangeColumn, Text.padRight, Range.display, not_mem_display]

theorem isLine_line (showRanges isLast : Bool) {indent label : Text} (kind : AreaKind)
    (range : Option Range) (hindent : '\n' ∉ indent) (hlabel : '\n' ∉ label) :
    Text.IsLine (line showRanges indent isLast kind label range) := by
  refine ⟨_, rfl, ?_⟩
  cases isLast <;> cases kind <;>
    simp [not_mem_rangeColumn, hindent, hlabel, icon]

/-! ### Connectors -/

/-- The connector of the last of several siblings. -/
def closing : Text := ['└', '─']

/-- The connector of any other. -/
def branching : Text := ['├', '─']

/-- The line of an area has that connector right before its icon and its label, which end it. -/
def Carries (connector : Text) (e : Entry) (line : Text) : Prop :=
  ∃ front label, line = front ++ connector ++ [' ', icon e.kind, ' '] ++ label ++ ['\n'] ∧
    Abbreviates label e.caption ∧ '\n' ∉ label

/-- A line carries one connector only. -/
theorem Carries.unique {c c' line : Text} {e : Entry} (h : Carries c e line)
    (h' : Carries c' e line) (hlength : c.length = c'.length) : c = c' := by
  obtain ⟨front, label, rfl, hlabel, -⟩ := h
  obtain ⟨front', label', heq, hlabel', -⟩ := h'
  rw [abbreviates_iff] at hlabel hlabel'
  subst hlabel hlabel'
  simp only [List.append_assoc] at heq
  obtain ⟨-, htail⟩ := List.append_inj' heq (by simp [hlength])
  exact List.append_cancel_right htail

theorem line_eq (showRanges isLast : Bool) (indent label : Text) (kind : AreaKind)
    (range : Option Range) : line showRanges indent isLast kind label range =
      rangeColumn showRanges range ++ indent ++ (if isLast then closing else branching) ++
        [' ', icon kind, ' '] ++ label ++ ['\n'] := by
  cases isLast <;> simp [line, closing, branching]

/-- The line of an area carries the closing connector, and not the other one, exactly if it is
    written as that of the last sibling. -/
theorem carries_line_iff (e : Entry) (showRanges isLast : Bool) (indent : Text)
    (range : Option Range) :
    let written := line showRanges indent isLast e.kind (labelOf e.caption) range
    (Carries closing e written ↔ isLast = true) ∧
      (Carries branching e written ↔ isLast = false) := by
  intro written
  have hwritten : Carries (if isLast then closing else branching) e written :=
    ⟨rangeColumn showRanges range ++ indent, labelOf e.caption, line_eq _ _ _ _ _ _,
      abbreviates_iff.2 rfl, not_mem_labelOf _⟩
  have hne : closing ≠ branching := by decide
  cases isLast with
  | true =>
    refine ⟨iff_of_true hwritten rfl, iff_of_false ?_ (by decide)⟩
    intro h
    exact hne (hwritten.unique h rfl)
  | false =>
    refine ⟨iff_of_false ?_ (by decide), iff_of_true hwritten rfl⟩
    intro h
    exact hne (h.unique hwritten rfl)

/-! ### The lines of an outline -/

/-- The line of an area ends with its icon and its label. -/
def Shows (e : Entry) (line : Text) : Prop := Carries closing e line ∨ Carries branching e line

theorem shows_line (e : Entry) (showRanges isLast : Bool) (indent : Text) (range : Option Range) :
    Shows e (line showRanges indent isLast e.kind (labelOf e.caption) range) := by
  obtain ⟨hclosing, hbranching⟩ := carries_line_iff e showRanges isLast indent range
  cases isLast with
  | true => exact .inl (hclosing.2 rfl)
  | false => exact .inr (hbranching.2 rfl)

variable (showRanges : Bool)

/-- Inside a container there is one line for each child. -/
theorem forall₂_childLines (indent : Text) (c : Container) (leaves : List Leaf) :
    List.Forall₂ Shows (leaves.map (Entry.child c)) (childLines showRanges indent leaves) := by
  induction leaves with
  | nil => exact .nil
  | cons l rest ih => exact .cons (shows_line (.child c l) _ _ _ _) ih

/-- There is one line for each area and each child, in document order. -/
theorem forall₂_areaLines (areas : List Area) :
    List.Forall₂ Shows (areas.flatMap Area.entries) (areaLines showRanges areas) := by
  induction areas with
  | nil => exact .nil
  | cons a rest ih =>
    rw [List.flatMap_cons, areaLines, label_eq]
    apply List.rel_append _ ih
    cases a with
    | leaf l => exact .cons (shows_line (.top (.leaf l)) _ _ _ _) .nil
    | container c =>
      exact .cons (shows_line (.top (.container c)) _ _ _ _) (forall₂_childLines _ _ c c.children)

theorem isLine_of_mem_childLines {indent line : Text} {leaves : List Leaf} (hindent : '\n' ∉ indent)
    (h : line ∈ childLines showRanges indent leaves) : Text.IsLine line := by
  induction leaves with
  | nil => exact nomatch h
  | cons l rest ih =>
    rw [childLines] at h
    rcases List.mem_cons.1 h with rfl | h
    · exact isLine_line _ _ _ _ hindent (not_mem_labelOf _)
    · exact ih h

theorem isLine_of_mem_areaLines {line : Text} {areas : List Area}
    (h : line ∈ areaLines showRanges areas) : Text.IsLine line := by
  induction areas with
  | nil => exact nomatch h
  | cons a rest ih =>
    rw [areaLines, label_eq, List.mem_append] at h
    rcases h with h | h
    · rcases List.mem_cons.1 h with rfl | h
      · exact isLine_line _ _ _ _ List.not_mem_nil (not_mem_labelOf _)
      · refine isLine_of_mem_childLines showRanges ?_ h
        split <;> decide
    · exact ih h

/-! ### The last of several siblings -/

/-- The line at an index carries the closing connector if its area is the last of its siblings, and
    the other connector if it is not. -/
def ClosesIff (lines : List Text) (index : Nat) (e : Entry) (isLast : Prop) : Prop :=
  ∃ line, lines[index]? = some line ∧ (Carries closing e line ↔ isLast) ∧
    (Carries branching e line ↔ ¬ isLast)

theorem closesIff_of_getElem? {lines : List Text} {index : Nat} {e : Entry} {indent : Text}
    {range : Option Range} {α : Type} {behind : List α}
    (h : lines[index]? =
      some (line showRanges indent behind.isEmpty e.kind (labelOf e.caption) range)) :
    ClosesIff lines index e (behind = []) := by
  obtain ⟨hclosing, hbranching⟩ := carries_line_iff e showRanges behind.isEmpty indent range
  refine ⟨_, h, ?_, ?_⟩
  · rw [hclosing, List.isEmpty_iff]
  · rw [hbranching, List.isEmpty_eq_false_iff]

theorem getElem?_childLines (indent : Text) (front : List Leaf) (l : Leaf) (behind : List Leaf) :
    (childLines showRanges indent (front ++ l :: behind))[front.length]? =
      some (line showRanges indent behind.isEmpty l.kind.areaKind (labelOf l.content) l.range) := by
  induction front with
  | nil => rfl
  | cons m front ih => exact ih

theorem length_childLines (indent : Text) (leaves : List Leaf) :
    (childLines showRanges indent leaves).length = leaves.length := by
  induction leaves with
  | nil => rfl
  | cons l rest ih => exact congrArg Nat.succ ih

theorem length_entries (a : Area) : a.entries.length = a.children.length + 1 := by
  cases a with
  | leaf l => rfl
  | container c => exact congrArg Nat.succ (List.length_map _)

/-- The lines of the areas from one on come behind those of the areas before it. -/
theorem drop_areaLines (before : List Area) (a : Area) (after : List Area) :
    (areaLines showRanges (before ++ a :: after)).drop (before.flatMap Area.entries).length =
      areaLines showRanges (a :: after) := by
  induction before with
  | nil => rfl
  | cons b before ih =>
    rw [List.cons_append, areaLines, List.flatMap_cons, List.length_append, ← List.drop_drop]
    rw [List.drop_left' ?_]
    · exact ih
    · rw [List.length_cons, length_childLines, length_entries]

/-- The line of an area comes behind those of the areas before it. -/
theorem getElem?_areaLines_top (before : List Area) (a : Area) (after : List Area) :
    (areaLines showRanges (before ++ a :: after))[(before.flatMap Area.entries).length]? =
      some (line showRanges [] after.isEmpty a.kind (labelOf (Entry.top a).caption) a.range) := by
  rw [← List.head?_drop, drop_areaLines, areaLines, label_eq]
  rfl

/-- The line of a child comes behind that of its container and those of the children before it. -/
theorem getElem?_areaLines_child (before : List Area) {c : Container} (after : List Area)
    {front : List Leaf} {l : Leaf} {behind : List Leaf} (h : c.children = front ++ l :: behind) :
    ∃ indent, (areaLines showRanges (before ++ .container c :: after))[
        (before.flatMap Area.entries).length + (front.length + 1)]? =
      some (line showRanges indent behind.isEmpty l.kind.areaKind (labelOf l.content) l.range) := by
  let indent : Text := if after.isEmpty then [' ', ' '] else ['│', ' ']
  refine ⟨indent, ?_⟩
  have hlength : front.length < (childLines showRanges indent (front ++ l :: behind)).length := by
    rw [length_childLines, List.length_append, List.length_cons]
    omega
  rw [← List.getElem?_drop, drop_areaLines, areaLines]
  show ((_ :: childLines showRanges indent c.children) ++ _)[front.length + 1]? = _
  rw [h, List.cons_append, List.getElem?_cons_succ, List.getElem?_append_left hlength]
  exact getElem?_childLines showRanges indent front l behind

/-- What is promised about an outline, of which these are the first line and all others. -/
structure OneLinePerArea (d : Document) (header : Text) (lines : List Text) : Prop where
  /-- The first line shows the uri. -/
  header_isLine : header.IsLine ∧ ['⧉', ' '] ++ d.uri ++ ['\n'] <:+ header
  /-- The others are lines as well, -/
  isLine : ∀ line ∈ lines, line.IsLine
  /-- one for each area and child in document order, with its icon and its label. -/
  shows : List.Forall₂ Shows d.entries lines
  /-- The line of an area at the top level is a closing one exactly if no area follows. -/
  closes_top : ∀ before a after, d.areas = before ++ a :: after →
    ClosesIff lines (before.flatMap Area.entries).length (.top a) (after = [])
  /-- The line of a child is a closing one exactly if no child follows in its container. -/
  closes_child : ∀ before c after front l behind, d.areas = before ++ .container c :: after →
    c.children = front ++ l :: behind →
    ClosesIff lines ((before.flatMap Area.entries).length + (front.length + 1)) (.child c l)
      (behind = [])

end Outline

namespace Document

open Outline

theorem isLine_header {uri : Text} (huri : '\n' ∉ uri) (showRanges : Bool) :
    Text.IsLine (rangeColumn showRanges none ++ ['⧉', ' '] ++ uri ++ ['\n']) := by
  refine ⟨_, rfl, ?_⟩
  simp [not_mem_rangeColumn, huri]

/-- The outline of a document whose uri is on one line has a first line and then one line for each
    area, with or without ranges. -/
theorem outline_oneLinePerArea {d : Document} (huri : '\n' ∉ d.uri) (showRanges : Bool) :
    ∃ header lines, d.outline showRanges = header ++ lines.flatten ∧
      OneLinePerArea d header lines := by
  refine ⟨rangeColumn showRanges none ++ ['⧉', ' '] ++ d.uri ++ ['\n'],
    areaLines showRanges d.areas, rfl, ?_⟩
  constructor
  case header_isLine =>
    refine ⟨isLine_header huri showRanges, ?_⟩
    simp only [List.append_assoc]
    exact List.suffix_append _ _
  case isLine =>
    intro line hline
    exact isLine_of_mem_areaLines showRanges hline
  case shows => exact forall₂_areaLines showRanges d.areas
  case closes_top =>
    intro before a after hareas
    have hline := getElem?_areaLines_top showRanges before a after
    rw [← hareas] at hline
    exact closesIff_of_getElem? showRanges hline
  case closes_child =>
    intro before c after front l behind hareas hchildren
    obtain ⟨indent, hline⟩ := getElem?_areaLines_child showRanges before after hchildren
    rw [← hareas] at hline
    exact closesIff_of_getElem? showRanges hline

/-- A collapsible without a title, with a child of thirty characters and one of more that begins with
    a line feed, and an input without any children. -/
def sketched : Document where
  uri := ['t']
  areas := [
    .container ⟨⟨54, by decide⟩, .collapsible [], [
      ⟨⟨57, by decide⟩, .math, List.replicate 30 'x', none⟩,
      ⟨⟨52, by decide⟩, .code, '\n' :: List.replicate 30 'x', none⟩], none⟩,
    .container ⟨.zero, .input .correct, [], none⟩]

theorem outline_oneLinePerArea_sketched :
    '\n' ∉ sketched.uri ∧
      (∃ header lines, sketched.outline true = header ++ lines.flatten ∧
        OneLinePerArea sketched header lines) ∧
      sketched.outline false = "⧉ t\n".toList ++ "├─ ⊟ (untitled)\n".toList ++
        "│ ├─ √ xxxxxxxxxxxxxxxxxxxxxxxxxxxxxx\n".toList ++
        "│ └─ ƒ ⏎xxxxxxxxxxxxxxxxxxxxxxxxxxxxx...\n".toList ++ "└─ ✎ correct\n".toList := by
  have huri : '\n' ∉ sketched.uri := by decide
  exact ⟨huri, outline_oneLinePerArea huri true, by decide +kernel⟩

end Document

end Worksheet
