import Worksheet.Proofs.Region.LineEnds
import Worksheet.Reading

/-! # Reading either form of line end

  Reading does not depend on how the lines of a text end. The dialects of regions keep line ends as
  they are, in contents and in titles. Blocks are read line by line, and their contents are put
  together with line feeds alone.
-/

namespace Worksheet.Dialect

theorem read_crlf {d : Dialect} (hd : d ≠ lean) {source : Text} (h : '\r' ∉ source) :
    d.read source.crlf = (d.read source).map (Shape.mapText Text.crlf) := by
  cases d with
  | coq => exact RegionGrammar.seesThrough_coq.read_crlf h
  | coqmd => exact RegionGrammar.seesThrough_coqmd.read_crlf h
  | lean => exact absurd rfl hd
  | leanPure => exact RegionGrammar.seesThrough_leanPure.read_crlf h

theorem read_lean_crlf {source : Text} (h : '\r' ∉ source) :
    lean.read source.crlf = lean.read source := by
  show Block.read source.crlf = Block.read source
  unfold Block.read
  rw [Text.lines_crlf h]

/-- With a carriage return before every line feed of a text, the same areas are read under the same
    identifiers. In the dialects of regions their contents and titles have the longer line ends, and
    nothing else is changed; in the dialect of blocks nothing is changed at all. -/
theorem parse_crlf {source : Text} (h : '\r' ∉ source) (ids : IdCounter) :
    (∀ d : Dialect, d ≠ lean → d.parse source.crlf ids =
      ((d.parse source ids).1.map (Area.mapText Text.crlf), (d.parse source ids).2)) ∧
    lean.parse source.crlf ids = lean.parse source ids := by
  unfold parse
  refine ⟨?_, ?_⟩
  · intro d hd
    rw [read_crlf hd h, Area.number_map_mapText]
  · rw [read_lean_crlf h]

/-- A fenced block of two lines inside a hint whose tag and title lie across lines. -/
theorem parse_crlf_hint :
    let source : Text := "<hint\ntitle=\"a\nb\">\n```coq\nQ.\nR.\n```\nc\n</hint>".toList
    '\r' ∉ source ∧
    (coqmd.parse source.crlf {}).1 =
      [.container ⟨⟨0, by decide⟩, .collapsible "a\r\nb".toList,
        [⟨⟨1, by decide⟩, .code, "Q.\r\nR.".toList, none⟩,
          ⟨⟨2, by decide⟩, .text, "c\r\n".toList, none⟩], none⟩] := by
  intro source
  have hsource : '\r' ∉ source := by decide
  refine ⟨hsource, ?_⟩
  rw [(parse_crlf hsource {}).1 coqmd (by decide)]
  decide +kernel

end Worksheet.Dialect
