import Worksheet.Proofs.Area.Forest
import Worksheet.Proofs.Block.RoundTrip

/-! # Blocks inside blocks

  All blocks end with the same closer, so whether a closer ends a block depends on which blocks are
  open. Of a container inside a container the reader keeps track of the leaf blocks, but not of the
  containers in it: it ends with the first closer that is not one of a leaf block. So areas are read
  as they were written up to two levels of containers, and not beyond (`read_write_iff_depth`).
-/

namespace Worksheet

/-- How deep containers are nested. -/
def Forest.depth : Forest → Nat
  | nil => 0
  | leaf _ rest => rest.depth
  | container _ children rest => max (children.depth + 1) rest.depth

namespace Block

/-- A title that is one in a block: on its line, without blanks at its end. -/
def IsTitle (title : Text) : Prop :=
  (∀ c ∈ title, c ∉ [':', '\r', '\n']) ∧ title.getLast?.any Text.isBlankChar = false

instance : DecidablePred IsTitle := fun title =>
  have := List.decidableBAll (· ∉ [':', '\r', '\n']) title
  inferInstanceAs (Decidable (_ ∧ _))

theorem IsTitle.not_mem {title : Text} (h : IsTitle title) : '\r' ∉ title ∧ '\n' ∉ title :=
  ⟨fun hc => h.1 _ hc (by decide), fun hc => h.1 _ hc (by decide)⟩

/-- A written container as prose: its lines, put together again. -/
def prose (heading : Heading) (inside : Forest) : Text :=
  Text.joinLines (Text.lines (inside.enclosed .lean heading))

/-! ### The lines of written areas -/

/-- The line that opens a container. -/
def containerLine : Heading → Text
  | .collapsible _ => ":::collapsible".toList
  | .input _ => ":::input".toList

/-- The line behind it that names the title, if there is one. -/
def titleLines : Heading → List Text
  | .collapsible title => if title = [] then [] else [titleLine title]
  | .input _ => []

/-- The lines of written areas. -/
def forestLines : Forest → List Text
  | .nil => []
  | .leaf s rest => leafLines s ++ forestLines rest
  | .container heading inside rest =>
    containerLine heading ::
      (titleLines heading ++ (forestLines inside ++ closerLine :: forestLines rest))

theorem forestLines_container_append (heading : Heading) (inside others : Forest)
    (rest : List Text) :
    forestLines (.container heading inside others) ++ rest = containerLine heading ::
      (titleLines heading ++ (forestLines inside ++ closerLine :: (forestLines others ++ rest))) := by
  simp only [forestLines, List.append_assoc, List.cons_append]

variable {heading : Heading} {inside forest : Forest}

/-- The lines of the opening delimiter of a container and of what follows it. -/
theorem lines_opening (hheading : heading.Titled IsTitle) (after : Text) :
    Text.lines ((OutputGrammar.lean.ofHeading heading).opening ++ after) =
      containerLine heading :: (titleLines heading ++ Text.lines after) := by
  cases heading with
  | input grade => exact lines_inputLine after
  | collapsible title =>
    by_cases hempty : title = []
    · subst hempty
      exact lines_collapsibleLine after
    · have hd : OutputGrammar.lean.ofHeading (.collapsible title) =
          ⟨":::collapsible\n# ".toList ++ (title ++ "\n".toList), ":::\n".toList⟩ := if_neg hempty
      have htext : (OutputGrammar.lean.ofHeading (.collapsible title)).opening ++ after =
          ":::collapsible".toList ++ '\n' :: (titleLine title ++ '\n' :: after) := by
        rw [hd]
        simp only [List.append_assoc]
        rfl
      have hline : titleLines (.collapsible title) = [titleLine title] := if_neg hempty
      rw [htext, lines_collapsibleLine, lines_titleLine hheading.not_mem.1 hheading.not_mem.2,
        hline]
      rfl

theorem closing_eq (heading : Heading) :
    (OutputGrammar.lean.ofHeading heading).closing = closerLine ++ ['\n'] := by
  cases heading with
  | input grade => rfl
  | collapsible title =>
    show (OutputGrammar.lean.ofTitle title).closing = _
    unfold OutputGrammar.ofTitle
    split <;> rfl

theorem lines_write (hforest : forest.IsPlain isPlain IsTitle) (after : Text) :
    Text.lines (forest.write .lean ++ after) = forestLines forest ++ Text.lines after := by
  induction forest generalizing after with
  | nil => rfl
  | leaf s rest ih =>
    rw [Forest.write, List.append_assoc, lines_leaf (leafFits_of_isPlain hforest.1),
      ih hforest.2, forestLines, List.append_assoc]
  | container heading inside rest ihc ih =>
    obtain ⟨hheading, hinside, hrest⟩ := hforest
    have hclosing : closerLine ++ ['\n'] ++ (rest.write .lean ++ after) =
        closerLine ++ '\n' :: (rest.write .lean ++ after) := by simp
    rw [Forest.write_container, Forest.enclosed_eq, List.append_assoc, List.append_assoc,
      List.append_assoc, closing_eq, hclosing, lines_opening hheading, ihc hinside,
      lines_closerLine, ih hrest, forestLines_container_append]

/-- Prose that a container becomes is all of its lines. -/
theorem prose_eq (hheading : heading.Titled IsTitle) (hinside : inside.IsPlain isPlain IsTitle) :
    prose heading inside = Text.joinLines
      (containerLine heading :: (titleLines heading ++ (forestLines inside ++ [closerLine]))) := by
  have hclosing : Text.lines (closerLine ++ ['\n']) = [closerLine] := lines_closerLine []
  unfold prose
  rw [Forest.enclosed_eq, lines_opening hheading, lines_write hinside, closing_eq, hclosing]

/-! ### Containers inside containers -/

/-- A line that neither closes a block nor opens a leaf block is just one more line. -/
theorem innerContainer_cons {line : Text} (hclose : isCloser line = false)
    (hopen : ∀ kind, opener? line ≠ some (.leaf kind)) (rest : List Text) :
    innerContainer (line :: rest) =
      (line :: (innerContainer rest).1, (innerContainer rest).2) := by
  rw [innerContainer, if_neg (Bool.eq_false_iff.1 hclose)]
  split
  · next kind hkind => exact absurd hkind (hopen kind)
  · rfl

theorem innerContainer_closerLine (rest : List Text) :
    innerContainer (closerLine :: rest) = ([closerLine], rest) := by
  have hclose : isCloser closerLine = true := by decide
  rw [innerContainer, if_pos hclose]

/-- A leaf block is gone through, its closer included. -/
theorem innerContainer_leafLines {s : LeafShape} (hs : LeafFits s) (rest : List Text) :
    innerContainer (leafLines s ++ rest) =
      (leafLines s ++ (innerContainer rest).1, (innerContainer rest).2) := by
  obtain ⟨hbody, hbehind⟩ := body_append hs.2 rest
  rw [leafLines_append, innerContainer, isCloser_openerLine, opener?_openerLine]
  simp only [Bool.false_eq_true, if_false, hbody]
  split
  · next h => cases hbehind.symm.trans h
  · next closer rest' h =>
    obtain ⟨rfl, rfl⟩ := List.cons.inj (hbehind.symm.trans h)
    simp only [leafLines, List.append_assoc, List.cons_append, List.nil_append]

theorem isCloser_containerLine (heading : Heading) : isCloser (containerLine heading) = false := by
  cases heading <;> rfl

/-- What the line opens. -/
def openerOf : Heading → Opener
  | .collapsible _ => .collapsible
  | .input _ => .input

theorem opener?_containerLine (heading : Heading) :
    opener? (containerLine heading) = some (openerOf heading) := by
  cases heading <;> rfl

theorem openerOf_ne_leaf (heading : Heading) (kind : LeafKind) :
    openerOf heading ≠ .leaf kind := by
  cases heading <;> exact nofun

/-- A line that names a title is no line of the block syntax. -/
theorem opener?_titleLine {title : Text} (hne : title ≠ [])
    (htrim : title.getLast?.any Text.isBlankChar = false) :
    isCloser (titleLine title) = false ∧ opener? (titleLine title) = none := by
  have hself : Text.trimEnd (titleLine title) = titleLine title := by
    refine Text.trimEnd_eq_self ?_
    unfold titleLine
    rw [List.getLast?_cons_of_ne_nil (List.cons_ne_nil _ _), List.getLast?_cons_of_ne_nil hne]
    exact htrim
  -- its first character is not a colon
  refine ⟨decide_eq_false ?_, ?_⟩
  · rw [hself]
    exact fun h => nomatch (List.cons.inj h).1
  · unfold opener?
    simp only [hself]
    simp [titleLine]

theorem innerContainer_titleLines (hheading : heading.Titled IsTitle) (rest : List Text) :
    innerContainer (titleLines heading ++ rest) =
      (titleLines heading ++ (innerContainer rest).1, (innerContainer rest).2) := by
  cases heading with
  | input grade => rfl
  | collapsible title =>
    by_cases hempty : title = []
    · subst hempty
      rfl
    · obtain ⟨hclose, hopen⟩ := opener?_titleLine hempty hheading.2
      have hline : titleLines (.collapsible title) = [titleLine title] := if_neg hempty
      rw [hline]
      refine innerContainer_cons hclose ?_ rest
      intro kind
      rw [hopen]
      exact nofun

theorem innerContainer_containerLine (heading : Heading) (rest : List Text) :
    innerContainer (containerLine heading :: rest) =
      (containerLine heading :: (innerContainer rest).1, (innerContainer rest).2) := by
  refine innerContainer_cons (isCloser_containerLine heading) ?_ rest
  intro kind h
  rw [opener?_containerLine] at h
  exact openerOf_ne_leaf heading kind (Option.some.inj h)

/-- The scan for the end of a container inside a container finds some of its lines, all of them
    exactly if there is no container in it, and goes on behind what it has found. -/
theorem innerContainer_forestLines (hforest : forest.IsPlain isPlain IsTitle) (rest : List Text) :
    ∃ found left, innerContainer (forestLines forest ++ closerLine :: rest) =
        (found, left ++ rest) ∧
      forestLines forest ++ [closerLine] = found ++ left ∧ (left = [] ↔ forest.depth = 0) := by
  induction forest generalizing rest with
  | nil => exact ⟨[closerLine], [], innerContainer_closerLine rest, rfl, iff_of_true rfl rfl⟩
  | leaf s others ih =>
    obtain ⟨found, left, hscan, hsplit, hleft⟩ := ih hforest.2 rest
    refine ⟨leafLines s ++ found, left, ?_, ?_, hleft⟩
    · rw [forestLines, List.append_assoc,
        innerContainer_leafLines (leafFits_of_isPlain hforest.1), hscan]
    · rw [forestLines, List.append_assoc, hsplit, List.append_assoc]
  | container heading inside others ihc _ =>
    -- the opener counts for nothing, so the scan ends within this container, at the latest with
    -- its closer, and all that is behind it is left over
    obtain ⟨hheading, hinside, -⟩ := hforest
    obtain ⟨found, left, hscan, hsplit, -⟩ :=
      ihc hinside (forestLines others ++ closerLine :: rest)
    have hleft : left ++ (forestLines others ++ [closerLine]) ≠ [] := by simp
    have hdepth : (Forest.container heading inside others).depth ≠ 0 := by simp [Forest.depth]
    refine ⟨containerLine heading :: (titleLines heading ++ found),
      left ++ (forestLines others ++ [closerLine]), ?_, ?_, iff_of_false hleft hdepth⟩
    · rw [forestLines_container_append, innerContainer_containerLine,
        innerContainer_titleLines hheading, hscan]
      simp only [List.append_assoc, List.cons_append, List.nil_append]
    · have hall : forestLines inside ++ closerLine :: (forestLines others ++ [closerLine]) =
          found ++ (left ++ (forestLines others ++ [closerLine])) := by
        rw [← List.append_assoc found, ← hsplit, List.append_assoc]
        rfl
      rw [forestLines_container_append, hall, List.cons_append, List.append_assoc]

/-! ### What is read inside a container -/

/-- A container inside a container is prose up to where the scan for its end stops. -/
theorem children_containerLine (heading : Heading) (ls : List Text) :
    children (containerLine heading :: ls) =
      (⟨.text, Text.joinLines (containerLine heading :: (innerContainer ls).1)⟩ ::
        (children (innerContainer ls).2).1, (children (innerContainer ls).2).2) := by
  rw [children, if_neg (Bool.eq_false_iff.1 (isCloser_containerLine heading)),
    opener?_containerLine]
  split
  · next kind h => exact absurd (Option.some.inj h) (openerOf_ne_leaf heading kind)
  · rfl
  · next h => cases h

/-- The prose is all of the container exactly if there is no container in it: otherwise lines are
    missing, and it is shorter. -/
theorem joinLines_innerContainer_iff (hheading : heading.Titled IsTitle)
    (hinside : inside.IsPlain isPlain IsTitle) (rest : List Text) :
    Text.joinLines (containerLine heading :: (innerContainer (titleLines heading ++
      (forestLines inside ++ closerLine :: rest))).1) = prose heading inside ↔
        inside.depth = 0 := by
  obtain ⟨found, left, hscan, hsplit, hleft⟩ := innerContainer_forestLines hinside rest
  have hfound : containerLine heading :: (titleLines heading ++ found) ≠ [] := List.cons_ne_nil _ _
  have hall : containerLine heading :: (titleLines heading ++ (found ++ left)) =
      containerLine heading :: (titleLines heading ++ found) ++ left := by
    rw [List.cons_append, List.append_assoc]
  rw [innerContainer_titleLines hheading, hscan, prose_eq hheading hinside, hsplit, hall, eq_comm,
    Text.joinLines_append_eq_iff hfound, hleft]

/-- Behind a container without containers in it, reading goes on behind its closer. -/
theorem innerContainer_of_depth_eq_zero (hheading : heading.Titled IsTitle)
    (hinside : inside.IsPlain isPlain IsTitle) (hdepth : inside.depth = 0) (rest : List Text) :
    (innerContainer (titleLines heading ++ (forestLines inside ++ closerLine :: rest))).2 =
      rest := by
  obtain ⟨found, left, hscan, -, hleft⟩ := innerContainer_forestLines hinside rest
  rw [innerContainer_titleLines hheading, hscan, hleft.2 hdepth]
  rfl

/-- What is in a container is read as it was written exactly if there is at most one further level
    of containers, and then up to the closer. -/
theorem children_forestLines_iff (hforest : forest.IsPlain isPlain IsTitle) (rest : List Text) :
    ((children (forestLines forest ++ closerLine :: rest)).1 = forest.leaves prose ↔
      forest.depth ≤ 1) ∧
    (forest.depth ≤ 1 → (children (forestLines forest ++ closerLine :: rest)).2 = rest) := by
  induction forest with
  | nil =>
    have hclose : isCloser closerLine = true := by decide
    rw [forestLines, List.nil_append, children, if_pos hclose]
    exact ⟨iff_of_true rfl (Nat.zero_le 1), fun _ => rfl⟩
  | leaf s others ih =>
    rw [forestLines, List.append_assoc, children_leafLines (leafFits_of_isPlain hforest.1)]
    refine ⟨?_, (ih hforest.2).2⟩
    exact List.cons_inj_right s |>.trans (ih hforest.2).1
  | container heading inside others _ ih =>
    obtain ⟨hheading, hinside, hothers⟩ := hforest
    have hprose := joinLines_innerContainer_iff hheading hinside
      (forestLines others ++ closerLine :: rest)
    have hbehind := fun hdepth => innerContainer_of_depth_eq_zero hheading hinside hdepth
      (forestLines others ++ closerLine :: rest)
    have hdepth : (Forest.container heading inside others).depth ≤ 1 ↔
        inside.depth = 0 ∧ others.depth ≤ 1 := by
      rw [Forest.depth]
      omega
    rw [forestLines_container_append, children_containerLine, hdepth]
    -- a container in the inner one makes its prose too short; without one, reading goes on as for
    -- the others alone
    refine ⟨?_, ?_⟩
    · rw [Forest.leaves, List.cons.injEq, LeafShape.mk.injEq, hprose, eq_self_iff_true, true_and]
      refine and_congr_right ?_
      intro hzero
      rw [hbehind hzero]
      exact (ih hothers).1
    · rintro ⟨hzero, hone⟩
      rw [hbehind hzero]
      exact (ih hothers).2 hone

/-! ### Whole texts -/

/-- No line that begins an area, and no closer, names a title. -/
theorem heading_forestLines (forest : Forest) (rest : List Text) :
    Block.heading (forestLines forest ++ closerLine :: rest) =
      ([], forestLines forest ++ closerLine :: rest) := by
  cases forest with
  | nil => rfl
  | leaf s others =>
    rw [forestLines, List.append_assoc, leafLines_append, Block.heading, title?_openerLine]
  | container heading inside others => cases heading <;> rfl

theorem heading_titleLines {title : Text} (htitle : IsTitle title) (forest : Forest)
    (rest : List Text) :
    Block.heading (titleLines (.collapsible title) ++ (forestLines forest ++ closerLine :: rest)) =
      (title, forestLines forest ++ closerLine :: rest) := by
  by_cases hempty : title = []
  · subst hempty
    exact heading_forestLines forest rest
  · have hline : titleLines (.collapsible title) = [titleLine title] := if_neg hempty
    rw [hline, List.singleton_append, Block.heading, title?_titleLine htitle.2]

/-- A container at the top level is read from the lines behind its opener and title. -/
theorem readLines_containerLine (hheading : heading.Titled IsTitle) (inside : Forest)
    (rest : List Text) :
    readLines (containerLine heading ::
      (titleLines heading ++ (forestLines inside ++ closerLine :: rest))) =
        .container heading.ungraded (children (forestLines inside ++ closerLine :: rest)).1 ::
          readLines (children (forestLines inside ++ closerLine :: rest)).2 := by
  rw [readLines, opener?_containerLine]
  cases heading with
  | collapsible title =>
    simp only [openerOf, heading_titleLines hheading]
    rfl
  | input grade => rfl

theorem readLines_forestLines_iff (hforest : forest.IsPlain isPlain IsTitle) :
    readLines (forestLines forest) = forest.shapes (Forest.leaves prose) ↔ forest.depth ≤ 2 := by
  induction forest with
  | nil => exact iff_of_true (by rw [forestLines, readLines]; rfl) (Nat.zero_le 2)
  | leaf s others ih =>
    rw [forestLines, readLines_leafLines (leafFits_of_isPlain hforest.1)]
    exact List.cons_inj_right _ |>.trans (ih hforest.2)
  | container heading inside others _ ih =>
    obtain ⟨hheading, hinside, hothers⟩ := hforest
    obtain ⟨hleaves, hbehind⟩ := children_forestLines_iff hinside (forestLines others)
    have hdepth : (Forest.container heading inside others).depth ≤ 2 ↔
        inside.depth ≤ 1 ∧ others.depth ≤ 2 := by
      rw [Forest.depth]
      omega
    rw [forestLines, readLines_containerLine hheading, Forest.shapes, List.cons.injEq,
      Shape.container.injEq, eq_self_iff_true, true_and, hleaves, hdepth]
    refine and_congr_right ?_
    intro hone
    rw [hbehind hone]
    exact ih hothers

/-- What was written is read with its outermost areas as they were, and each container directly
    inside another as prose, exactly if containers are nested in at most two levels. -/
theorem read_write_iff_depth (hforest : forest.IsPlain isPlain IsTitle) :
    read (forest.write .lean) = forest.shapes (Forest.leaves prose) ↔ forest.depth ≤ 2 := by
  have hlines := lines_write hforest []
  rw [List.append_nil] at hlines
  unfold read
  rw [hlines]
  show readLines (forestLines forest ++ []) = _ ↔ _
  rw [List.append_nil]
  exact readLines_forestLines_iff hforest

end Block

end Worksheet
