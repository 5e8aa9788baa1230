import Worksheet.Block
import Worksheet.Proofs.Area.Merging
import Worksheet.Proofs.Area.Plain
import Worksheet.Proofs.Text.Lines

/-! # Reading written blocks

  Written blocks consist of whole lines, so a list of them is read line by line: each leaf is its
  opener, the lines of its content and a closer. It is read as it was if no line of its content can
  be taken for a closer. Nothing is merged, since every leaf has delimiters.
-/

namespace Worksheet.Block

/-! ### What a block can hold -/

/-- Characters that mean nothing in a block. -/
def isPlain (c : Char) : Bool := c ≠ ':' ∧ c ≠ '\r'

/-- A leaf that a block can hold: no line of its content closes the block, and there is no carriage
    return that a line end could take. -/
def LeafFits (s : LeafShape) : Prop :=
  '\r' ∉ s.content ∧ ∀ line ∈ s.content.splitOn '\n', isCloser line = false

/-- A heading that a block can have: a title is on its line, without blanks at its end. -/
def HeadingFits : Heading → Prop
  | .collapsible title =>
    '\r' ∉ title ∧ '\n' ∉ title ∧ title.getLast?.any Text.isBlankChar = false
  | .input grade => grade = .unattempted

/-- An area that a block can be. -/
def Fits : Shape → Prop
  | .leaf s => LeafFits s
  | .container heading children => HeadingFits heading ∧ ∀ s ∈ children, LeafFits s

/-- A line of a plain content closes nothing. -/
theorem isCloser_of_mem_splitOn {content line : Text} (hcontent : ∀ c ∈ content, isPlain c = true)
    (hline : line ∈ content.splitOn '\n') : isCloser line = false := by
  refine decide_eq_false ?_
  intro hcloser
  have hcolon : ':' ∈ Text.trimEnd line := by
    rw [hcloser]
    exact List.mem_cons_self
  have hmem := Text.mem_of_mem_splitOn hline (Text.mem_of_mem_trimEnd hcolon)
  exact nomatch hcontent ':' hmem

theorem leafFits_of_isPlain {s : LeafShape} (hs : s.IsPlain isPlain) : LeafFits s := by
  refine ⟨?_, fun _ => isCloser_of_mem_splitOn hs⟩
  intro hcr
  exact nomatch hs '\r' hcr

theorem headingFits_of_isPlain {heading : Heading} (h : heading.IsPlain) : HeadingFits heading := by
  cases heading with
  | collapsible title =>
    exact ⟨fun hcr => (h.ne hcr).2.2.2.1 rfl, fun hlf => (h.ne hlf).2.2.2.2 rfl, h.2⟩
  | input grade => exact h

theorem fits_of_isPlain {s : Shape} (hs : s.IsPlain isPlain) : Fits s := by
  cases s with
  | leaf s => exact leafFits_of_isPlain hs
  | container heading children =>
    exact ⟨headingFits_of_isPlain hs.1, fun s hmem => leafFits_of_isPlain (hs.2 s hmem)⟩

/-! ### Lines of written blocks -/

/-- The line that opens a leaf. -/
def openerLine : LeafKind → Text
  | .text => ":::text".toList
  | .code => ":::code".toList
  | .math => ":::math".toList

/-- The line that closes a block. -/
def closerLine : Text := ":::".toList

/-- The lines of a written leaf. -/
def leafLines (s : LeafShape) : List Text :=
  openerLine s.kind :: (s.content.splitOn '\n' ++ [closerLine])

theorem opener?_openerLine (kind : LeafKind) : opener? (openerLine kind) = some (.leaf kind) := by
  cases kind <;> decide

theorem isCloser_openerLine (kind : LeafKind) : isCloser (openerLine kind) = false := by
  cases kind <;> decide

theorem title?_openerLine (kind : LeafKind) : title? (openerLine kind) = none := by
  cases kind <;> rfl

theorem delimiters_eq (kind : LeafKind) : OutputGrammar.lean.ofLeafKind kind =
    ⟨openerLine kind ++ ['\n'], '\n' :: (closerLine ++ ['\n'])⟩ := by
  cases kind <;> rfl

theorem lines_openerLine (kind : LeafKind) (after : Text) :
    Text.lines (openerLine kind ++ '\n' :: after) = openerLine kind :: Text.lines after := by
  have hline : '\r' ∉ openerLine kind ∧ '\n' ∉ openerLine kind := by cases kind <;> decide
  exact Text.lines_line_append hline.1 hline.2 after

theorem lines_closerLine (after : Text) :
    Text.lines (closerLine ++ '\n' :: after) = closerLine :: Text.lines after :=
  Text.lines_line_append (by decide) (by decide) after

/-- The lines of a written leaf and of what follows it. -/
theorem lines_leaf {s : LeafShape} (hs : LeafFits s) (after : Text) :
    Text.lines ((s.render .lean).text ++ after) = leafLines s ++ Text.lines after := by
  have htext : (s.render .lean).text ++ after =
      openerLine s.kind ++ '\n' :: (s.content ++ '\n' :: (closerLine ++ '\n' :: after)) := by
    rw [LeafShape.text_render, delimiters_eq]
    simp only [List.append_assoc, List.cons_append, List.nil_append]
  rw [htext, lines_openerLine, Text.lines_append hs.1, lines_closerLine]
  simp only [leafLines, List.append_assoc, List.cons_append, List.nil_append]

/-! ### Leaves -/

theorem body_append {ls : List Text} (hls : ∀ line ∈ ls, isCloser line = false) (rest : List Text) :
    body (ls ++ closerLine :: rest) = ls ∧
      behindBody (ls ++ closerLine :: rest) = closerLine :: rest := by
  have hopen : ∀ line ∈ ls, (!isCloser line) = true := by
    intro line hline
    rw [hls line hline]
    rfl
  have hclose : ¬(!isCloser closerLine) = true := by decide
  unfold body behindBody
  rw [List.takeWhile_append_of_pos hopen, List.dropWhile_append_of_pos hopen,
    List.takeWhile_cons_of_neg (p := fun line => !isCloser line) hclose,
    List.dropWhile_cons_of_neg (p := fun line => !isCloser line) hclose, List.append_nil]
  exact ⟨rfl, rfl⟩

theorem leafLines_append (s : LeafShape) (rest : List Text) :
    leafLines s ++ rest = openerLine s.kind :: (s.content.splitOn '\n' ++ closerLine :: rest) := by
  simp only [leafLines, List.append_assoc, List.cons_append, List.nil_append]

/-- A written leaf at the top level is read as it was. -/
theorem readLines_leafLines {s : LeafShape} (hs : LeafFits s) (rest : List Text) :
    readLines (leafLines s ++ rest) = .leaf s :: readLines rest := by
  obtain ⟨hbody, hbehind⟩ := body_append hs.2 rest
  rw [leafLines_append, readLines, opener?_openerLine]
  simp only [hbody, hbehind, Text.joinLines_splitOn, List.drop_succ_cons, List.drop_zero]

/-- A written leaf in a container is read as it was. -/
theorem children_leafLines {s : LeafShape} (hs : LeafFits s) (rest : List Text) :
    children (leafLines s ++ rest) = (s :: (children rest).1, (children rest).2) := by
  obtain ⟨hbody, hbehind⟩ := body_append hs.2 rest
  rw [leafLines_append, children, isCloser_openerLine, opener?_openerLine]
  simp only [hbody, hbehind, Text.joinLines_splitOn, List.drop_succ_cons, List.drop_zero,
    Bool.false_eq_true, if_false]

/-- The children of a written container are read as they were, up to its closer. -/
theorem children_write {leaves : List LeafShape} (hleaves : ∀ s ∈ leaves, LeafFits s)
    (after : Text) :
    children (Text.lines (LeafShape.write .lean leaves ++ (closerLine ++ '\n' :: after))) =
      (leaves, Text.lines after) := by
  induction leaves with
  | nil =>
    have hclose : isCloser closerLine = true := by decide
    show children (Text.lines (closerLine ++ '\n' :: after)) = _
    rw [lines_closerLine, children, if_pos hclose]
  | cons s rest ih =>
    obtain ⟨hs, hrest⟩ := List.forall_mem_cons.1 hleaves
    rw [LeafShape.write_cons, List.append_assoc, lines_leaf hs, children_leafLines hs, ih hrest]

/-! ### Containers -/

/-- The lines of a written container begin with an opener or its closer, neither of which names a
    title. -/
theorem heading_write {leaves : List LeafShape} (hleaves : ∀ s ∈ leaves, LeafFits s)
    (after : Text) :
    heading (Text.lines (LeafShape.write .lean leaves ++ (closerLine ++ '\n' :: after))) =
      ([], Text.lines (LeafShape.write .lean leaves ++ (closerLine ++ '\n' :: after))) := by
  cases leaves with
  | nil =>
    show heading (Text.lines (closerLine ++ '\n' :: after)) =
      ([], Text.lines (closerLine ++ '\n' :: after))
    rw [lines_closerLine]
    rfl
  | cons s rest =>
    rw [LeafShape.write_cons, List.append_assoc, lines_leaf (hleaves s List.mem_cons_self),
      leafLines_append, heading, title?_openerLine]

/-- The line that names a title. -/
def titleLine (title : Text) : Text := '#' :: ' ' :: title

theorem title?_titleLine {title : Text} (htrim : title.getLast?.any Text.isBlankChar = false) :
    title? (titleLine title) = some title := congrArg some (Text.trimEnd_eq_self htrim)

theorem lines_titleLine {title : Text} (hcr : '\r' ∉ title) (hlf : '\n' ∉ title) (after : Text) :
    Text.lines (titleLine title ++ '\n' :: after) = titleLine title :: Text.lines after := by
  have hnot : ∀ {c : Char}, c ≠ '#' → c ≠ ' ' → c ∉ title → c ∉ titleLine title := by
    intro c hhash hblank hc
    exact List.not_mem_cons_of_ne_of_not_mem hhash (List.not_mem_cons_of_ne_of_not_mem hblank hc)
  exact Text.lines_line_append (hnot (by decide) (by decide) hcr) (hnot (by decide) (by decide) hlf)
    after

/-- A line with a title names it. -/
theorem heading_title {title : Text} (htitle : HeadingFits (.collapsible title)) (after : Text) :
    heading (Text.lines (titleLine title ++ '\n' :: after)) = (title, Text.lines after) := by
  rw [lines_titleLine htitle.1 htitle.2.1, heading, title?_titleLine htitle.2.2]

theorem lines_collapsibleLine (after : Text) :
    Text.lines (":::collapsible".toList ++ '\n' :: after) =
      ":::collapsible".toList :: Text.lines after :=
  Text.lines_line_append (by decide) (by decide) after

theorem lines_inputLine (after : Text) :
    Text.lines (":::input".toList ++ '\n' :: after) = ":::input".toList :: Text.lines after :=
  Text.lines_line_append (by decide) (by decide) after

/-- A collapsible whose heading is read as it was is read as it was. -/
theorem readLines_collapsible {title after inside : Text} {leaves : List LeafShape}
    (hheading : heading (Text.lines inside) =
      (title, Text.lines (LeafShape.write .lean leaves ++ (closerLine ++ '\n' :: after))))
    (hleaves : ∀ s ∈ leaves, LeafFits s) :
    readLines (Text.lines (":::collapsible".toList ++ '\n' :: inside)) =
      .container (.collapsible title) leaves :: readLines (Text.lines after) := by
  have hopener : opener? ":::collapsible".toList = some .collapsible := by decide
  rw [lines_collapsibleLine, readLines, hopener]
  simp only [hheading, children_write hleaves]

/-- A written container is read as it was. -/
theorem readLines_container {h : Heading} {leaves : List LeafShape}
    (hfits : Fits (.container h leaves)) (after : Text) :
    readLines (Text.lines (((Shape.container h leaves).render .lean).text ++ after)) =
      .container h leaves :: readLines (Text.lines after) := by
  obtain ⟨hheading, hleaves⟩ := hfits
  cases h with
  | input grade =>
    obtain rfl : grade = .unattempted := hheading
    have htext : ((Shape.container (.input .unattempted) leaves).render .lean).text ++ after =
        ":::input".toList ++ '\n' ::
          (LeafShape.write .lean leaves ++ (closerLine ++ '\n' :: after)) := by
      rw [Shape.text_render_container, List.append_assoc, List.append_assoc]
      rfl
    have hopener : opener? ":::input".toList = some .input := by decide
    rw [htext, lines_inputLine, readLines, hopener]
    simp only [children_write hleaves]
  | collapsible title =>
    by_cases hempty : title = []
    · subst hempty
      have htext : ((Shape.container (.collapsible []) leaves).render .lean).text ++ after =
          ":::collapsible".toList ++ '\n' ::
            (LeafShape.write .lean leaves ++ (closerLine ++ '\n' :: after)) := by
        rw [Shape.text_render_container, List.append_assoc, List.append_assoc]
        rfl
      rw [htext]
      exact readLines_collapsible (heading_write hleaves after) hleaves
    · have htext : ((Shape.container (.collapsible title) leaves).render .lean).text ++ after =
          ":::collapsible".toList ++ '\n' :: ('#' :: ' ' :: (title ++ '\n' ::
            (LeafShape.write .lean leaves ++ (closerLine ++ '\n' :: after)))) := by
        have hd : OutputGrammar.lean.ofHeading (.collapsible title) =
            ⟨":::collapsible\n# ".toList ++ (title ++ "\n".toList), ":::\n".toList⟩ := if_neg hempty
        rw [Shape.text_render_container, hd]
        simp only [List.append_assoc]
        rfl
      rw [htext]
      exact readLines_collapsible (heading_title hheading _) hleaves

/-! ### All areas -/

/-- Reading what was written gives the areas back. -/
theorem read_write {shapes : List Shape} (hshapes : ∀ s ∈ shapes, Fits s) :
    read (Shape.write .lean shapes) = shapes := by
  unfold read
  induction shapes with
  | nil =>
    show readLines [] = []
    rw [readLines]
  | cons s rest ih =>
    obtain ⟨hs, hrest⟩ := List.forall_mem_cons.1 hshapes
    rw [Shape.write_cons]
    cases s with
    | leaf s =>
      show readLines (Text.lines ((s.render .lean).text ++ _)) = _
      rw [lines_leaf hs, readLines_leafLines hs, ih hrest]
    | container h leaves => rw [readLines_container hs, ih hrest]

end Worksheet.Block
