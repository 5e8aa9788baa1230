import Worksheet.Area

/-! # Blocks

  In the block syntax of Lean worksheets a block begins with an opener line such as `:::code` and
  ends with a line `:::`, whatever the block is. So the text is read line by line. A leaf block
  holds all lines up to its closer. A container holds leaf blocks, loose lines, which become prose,
  and containers, which cannot be represented and become prose that holds their lines. A
  collapsible may name its title in a line that begins with `# ` right after the opener. A block
  that is never closed takes all that is left. Blank lines outside leaf blocks do not count.
-/

namespace Worksheet.Block

/-! ### Lines -/

/-- What an opener line opens. -/
inductive Opener where
  | leaf (kind : LeafKind)
  | collapsible
  | input
deriving DecidableEq

/-- What a line opens; blanks at its end do not count. -/
def opener? (line : Text) : Option Opener :=
  let line := Text.trimEnd line
  if line = ":::text".toList then some (.leaf .text)
  else if line = ":::code".toList then some (.leaf .code)
  else if line = ":::math".toList then some (.leaf .math)
  else if line = ":::collapsible".toList then some .collapsible
  else if line = ":::input".toList then some .input
  else none

def isCloser (line : Text) : Bool := Text.trimEnd line = ":::".toList

/-- The title that the line after the opener of a collapsible names. -/
def title? (line : Text) : Option Text := (['#', ' '].isPrefixOf? line).map Text.trimEnd

/-- Lines that go on with loose text. -/
def isLoose (line : Text) : Bool :=
  !Text.isBlank line && !isCloser line && (opener? line).isNone

/-! ### Blocks without structure -/

/-- The lines of a leaf block behind its opener. -/
def body (lines : List Text) : List Text := lines.takeWhile fun line => !isCloser line

/-- What follows a leaf block, its closer included, behind its opener. -/
def behindBody (lines : List Text) : List Text := lines.dropWhile fun line => !isCloser line

theorem body_append_behindBody (lines : List Text) : body lines ++ behindBody lines = lines :=
  List.takeWhile_append_dropWhile

theorem length_behindBody_le (lines : List Text) : (behindBody lines).length ≤ lines.length := by
  have := congrArg List.length (body_append_behindBody lines)
  simp only [List.length_append] at this
  omega

/-- The lines of a container inside a container, behind its opener and up to its closer, and what
    follows. The closers of leaf blocks in it belong to those blocks; further openers of
    containers in it count for nothing. -/
def innerContainer : List Text → List Text × List Text
  | [] => ([], [])
  | line :: rest =>
    if isCloser line then ([line], rest)
    else
      match opener? line with
      | some (.leaf _) =>
        match _h : behindBody rest with
        | [] => (line :: body rest, [])
        | closer :: rest' =>
          let (more, after) := innerContainer rest'
          (line :: body rest ++ closer :: more, after)
      | _ =>
        let (more, after) := innerContainer rest
        (line :: more, after)
termination_by lines => lines.length
decreasing_by
  · have := length_behindBody_le rest
    rw [_h] at this
    simp only [List.length_cons] at this ⊢
    omega
  · simp

/-- The lines of a container inside a container and those behind it are all the lines. -/
theorem innerContainer_append (lines : List Text) :
    (innerContainer lines).1 ++ (innerContainer lines).2 = lines := by
  fun_induction innerContainer lines with
  | case1 => rfl
  | case2 line rest hc => rfl
  | case3 line rest hc k hk hb =>
    have := body_append_behindBody rest
    rw [hb] at this
    simpa using this
  | case4 line rest hc k hk closer rest' hb more after hm ih =>
    have := body_append_behindBody rest
    rw [hm] at ih
    rw [hb] at this
    simp only at ih
    simp [ih, this]
  | case5 line rest hc more after hm hk ih =>
    rw [hm] at ih
    simpa using ih

theorem length_innerContainer_le (lines : List Text) :
    (innerContainer lines).2.length ≤ lines.length := by
  have := congrArg List.length (innerContainer_append lines)
  simp only [List.length_append] at this
  omega

/-! ### Containers -/

/-- The children of a container behind its opener and title, and what follows its closer. -/
def children : List Text → List LeafShape × List Text
  | [] => ([], [])
  | line :: rest =>
    if isCloser line then ([], rest)
    else
      match opener? line with
      | some (.leaf kind) =>
        let (leaves, after) := children ((behindBody rest).drop 1)
        (⟨kind, Text.joinLines (body rest)⟩ :: leaves, after)
      | some _ =>
        let (leaves, after) := children (innerContainer rest).2
        (⟨.text, Text.joinLines (line :: (innerContainer rest).1)⟩ :: leaves, after)
      | none =>
        if Text.isBlank line then children rest
        else
          let (leaves, after) := children (rest.dropWhile isLoose)
          (⟨.text, Text.joinLines (line :: rest.takeWhile isLoose)⟩ :: leaves, after)
termination_by lines => lines.length
decreasing_by
  · have := length_behindBody_le rest
    simp only [List.length_drop, List.length_cons]
    omega
  · have := length_innerContainer_le rest
    simp only [List.length_cons]
    omega
  · simp
  · have := (List.dropWhile_suffix (l := rest) isLoose).length_le
    simp only [List.length_cons]
    omega

theorem length_children_le (lines : List Text) : (children lines).2.length ≤ lines.length := by
  fun_induction children lines with
  | case1 => simp
  | case2 line rest hc => simp
  | case3 line rest hc kind hk leaves after hl ih =>
    have := length_behindBody_le rest
    rw [hl] at ih
    simp only [List.length_drop, List.length_cons] at ih ⊢
    omega
  | case4 line rest hc k hk hne leaves after hl ih =>
    have := length_innerContainer_le rest
    rw [hl] at ih
    simp only [List.length_cons] at ih ⊢
    omega
  | case5 line rest hc hk hb ih =>
    simp only [List.length_cons]
    omega
  | case6 line rest hc hk hb leaves after hl ih =>
    have := (List.dropWhile_suffix (l := rest) isLoose).length_le
    rw [hl] at ih
    simp only [List.length_cons] at ih ⊢
    omega

/-- The title of a collapsible behind its opener, and what follows it. -/
def heading : List Text → Text × List Text
  | [] => ([], [])
  | line :: rest =>
    match title? line with
    | some title => (title, rest)
    | none => ([], line :: rest)

theorem length_heading_le (lines : List Text) : (heading lines).2.length ≤ lines.length := by
  cases lines with
  | nil => simp [heading]
  | cons line rest =>
    simp only [heading]
    split <;> simp

/-! ### Whole texts -/

/-- Reads lines outside any block. -/
def readLines : List Text → List Shape
  | [] => []
  | line :: rest =>
    match opener? line with
    | some (.leaf kind) =>
      .leaf ⟨kind, Text.joinLines (body rest)⟩ :: readLines ((behindBody rest).drop 1)
    | some .collapsible =>
      let inside := children (heading rest).2
      .container (.collapsible (heading rest).1) inside.1 :: readLines inside.2
    | some .input =>
      let inside := children rest
      .container (.input .unattempted) inside.1 :: readLines inside.2
    | none =>
      if Text.isBlank line then readLines rest
      else
        .leaf ⟨.text, Text.joinLines (line :: rest.takeWhile isLoose)⟩ ::
          readLines (rest.dropWhile isLoose)
termination_by lines => lines.length
decreasing_by
  · have := length_behindBody_le rest
    simp only [List.length_drop, List.length_cons]
    omega
  · have h₁ := length_children_le (heading rest).2
    have h₂ := length_heading_le rest
    simp only [List.length_cons]
    omega
  · have := length_children_le rest
    simp only [List.length_cons]
    omega
  · simp
  · have := (List.dropWhile_suffix (l := rest) isLoose).length_le
    simp only [List.length_cons]
    omega

/-- Reads a text. -/
def read (s : Text) : List Shape := readLines (Text.lines s)

end Worksheet.Block
