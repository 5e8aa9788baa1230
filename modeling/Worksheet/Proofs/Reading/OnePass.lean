import Worksheet.Proofs.Area.Order
import Worksheet.Proofs.Block.OnePass
import Worksheet.Proofs.Region.OnePass
import Worksheet.Reading

/-! # Reading in one pass

  Reading goes through a text before anything is numbered. A reader that draws identifiers as it
  goes draws them at many places: before or after the lines of a block have been found, before what
  is inside a container has been gone through, and inside a container for what cannot stay one. It
  comes to the same in every dialect (`Dialect.scan_eq_parse`), for the order in which it draws them
  always is that of the areas.
-/

namespace Worksheet.Dialect

/-- Reads a text from front to end and draws an identifier for each area as it is found. -/
def scan : Dialect → Text → IdCounter → List Area × IdCounter
  | coq, s, ids => RegionGrammar.coq.scan false s ids
  | coqmd, s, ids => RegionGrammar.coqmd.scan false s ids
  | lean, s, ids => Block.scanLines (Text.lines s) ids
  | leanPure, s, ids => RegionGrammar.leanPure.scan false s ids

/-- Reading in one pass gives the same areas, and leaves the same counter. -/
theorem scan_eq_parse (d : Dialect) (s : Text) (ids : IdCounter) :
    d.scan s ids = d.parse s ids := by
  cases d with
  | coq => exact RegionGrammar.coq.scan_eq false s ids
  | coqmd => exact RegionGrammar.coqmd.scan_eq false s ids
  | lean => exact Block.scanLines_eq (Text.lines s) ids
  | leanPure => exact RegionGrammar.leanPure.scan_eq false s ids

/-- In every dialect the areas of a text are numbered in order from the counter on, until the last
    identifier is handed out, whether identifiers are given in the end or drawn on the way. -/
theorem numberedInOrder_parse (d : Dialect) (s : Text) (ids : IdCounter)
    (hroom : .last ∉ (d.parse s ids).1.flatMap Area.ids) :
    Area.NumberedInOrder (d.parse s ids).1 ids (d.parse s ids).2 ∧
      d.scan s ids = d.parse s ids :=
  ⟨Area.numberedInOrder (Area.handsOut_number (d.read s) ids) hroom, d.scan_eq_parse s ids⟩

/-- A counter that has five identifiers left before the last one, and an input that is never closed,
    with a hint inside it that becomes prose. -/
theorem numberedInOrder_parse_unclosed :
    let source : Text := "a<input-area>$$x$$<hint>b</hint>c".toList
    let ids : IdCounter := .startingAt ⟨Nat.pow 2 64 - 6, by decide⟩
    .last ∉ (coqmd.parse source ids).1.flatMap Area.ids ∧
      (Area.NumberedInOrder (coqmd.parse source ids).1 ids (coqmd.parse source ids).2 ∧
        coqmd.scan source ids = coqmd.parse source ids) ∧
      (coqmd.parse source ids).1.map (fun a => a.children.map Leaf.content) =
        [[], [['x'], "<hint>b</hint>".toList, ['c']]] ∧
      (coqmd.parse source ids).2.fresh.1 = .last := by
  intro source ids
  have hroom : .last ∉ (coqmd.parse source ids).1.flatMap Area.ids := by decide +kernel
  exact ⟨hroom, numberedInOrder_parse coqmd source ids hroom, by decide +kernel, by decide +kernel⟩

end Worksheet.Dialect
