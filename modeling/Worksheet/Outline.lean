import Worksheet.Document

/-! # Outlines

  An outline shows a document with one line for each area. A line has a connector that draws the
  nesting, an icon for the kind of area, and a label: the content of a leaf, the title of a
  collapsible, the grade of an input. Line feeds in labels are drawn as `⏎`, so every area takes
  exactly one line, and long labels are cut. Ranges may be shown in front.
-/

namespace Worksheet

namespace Outline

/-- Whether named parameters ask for ranges: `show-ranges` is among them and is not `false`. -/
def asksForRanges (params : List (String × String)) : Bool :=
  ((params.lookup "show-ranges").map (· != "false")).getD false

def icon : AreaKind → Char
  | .text => '¶'
  | .code => 'ƒ'
  | .math => '√'
  | .collapsible => '⊟'
  | .input => '✎'

/-- Number of characters of a label that are shown. -/
def labelWidth : Nat := 30

/-- A text cut to the width of a label; three dots say that something is missing. -/
def truncate (s : Text) : Text :=
  if s.length ≤ labelWidth then s else s.take labelWidth ++ "...".toList

/-- What is shown of a text in one line. -/
def labelOf (s : Text) : Text := truncate (s.map fun c => if c = '\n' then '⏎' else c)

/-- What an area is called. -/
def label : Area → Text
  | .leaf l => labelOf l.content
  | .container c =>
    match c.heading with
    | .collapsible title => labelOf (if title = [] then "(untitled)".toList else title)
    | .input grade => labelOf grade.name.toList

/-- What stands before a line: the range, or a dash where there is none. -/
def rangeColumn (showRanges : Bool) (range : Option Range) : Text :=
  if showRanges then Text.padRight 12 ((range.map Range.display).getD ['-']) ++ [' '] else []

/-- One line. -/
def line (showRanges : Bool) (indent : Text) (isLast : Bool) (kind : AreaKind) (label : Text)
    (range : Option Range) : Text :=
  rangeColumn showRanges range ++ indent ++ (if isLast then "└─".toList else "├─".toList) ++
    [' ', icon kind, ' '] ++ label ++ ['\n']

/-- The lines of the leaves in a container. -/
def childLines (showRanges : Bool) (indent : Text) : List Leaf → List Text
  | [] => []
  | l :: rest =>
    line showRanges indent rest.isEmpty l.kind.areaKind (labelOf l.content) l.range ::
      childLines showRanges indent rest

/-- The lines of areas, each followed by those of its children. -/
def areaLines (showRanges : Bool) : List Area → List Text
  | [] => []
  | a :: rest =>
    line showRanges [] rest.isEmpty a.kind (label a) a.range ::
      childLines showRanges (if rest.isEmpty then [' ', ' '] else ['│', ' ']) a.children ++
      areaLines showRanges rest

end Outline

/-- The outline of a document, under a line with its uri. -/
def Document.outline (d : Document) (showRanges : Bool) : Text :=
  Outline.rangeColumn showRanges none ++ ['⧉', ' '] ++ d.uri ++ ['\n'] ++
    (Outline.areaLines showRanges d.areas).flatten

end Worksheet
