import Worksheet.Proofs.Area.Numbering
import Worksheet.Proofs.Block.RoundTrip
import Worksheet.Proofs.Region.Canonical
import Worksheet.Reading

/-! # Reading undoes writing

  What is written in a dialect is read in the same dialect as the areas it was written from, as far
  as contents and titles are plain. Leaves that are written without delimiters come back merged, and
  nothing else changes; so what has been read is written as it was.
-/

namespace Worksheet.Dialect

/-- Characters that mean nothing in the contents of a dialect. -/
def isPlain : Dialect → Char → Bool
  | coq => RegionGrammar.isPlainCoq
  | coqmd => RegionGrammar.isPlainMarkdown
  | lean => Block.isPlain
  | leanPure => RegionGrammar.isPlainLean

/-- The kind of leaf that a dialect writes without delimiters. -/
def bareKind? : Dialect → Option LeafKind
  | coq | leanPure => some .code
  | coqmd => some .text
  | lean => none

/-- Areas as they come back in a dialect. -/
def merge (d : Dialect) (shapes : List Shape) : List Shape :=
  match d.bareKind? with
  | some kind => Shape.merge kind shapes
  | none => shapes

theorem read_write (d : Dialect) {shapes : List Shape}
    (hshapes : ∀ s ∈ shapes, s.IsPlain d.isPlain) :
    d.read (Shape.write d.grammar shapes) = d.merge shapes := by
  cases d with
  | coq => exact RegionGrammar.undoes_coq.read_write hshapes
  | coqmd => exact RegionGrammar.undoes_coqmd.read_write hshapes
  | lean => exact Block.read_write fun s hs => Block.fits_of_isPlain (hshapes s hs)
  | leanPure => exact RegionGrammar.undoes_leanPure.read_write hshapes

theorem write_merge (d : Dialect) (shapes : List Shape) :
    Shape.write d.grammar (d.merge shapes) = Shape.write d.grammar shapes := by
  cases d with
  | coq => exact Shape.write_merge rfl shapes
  | coqmd => exact Shape.write_merge rfl shapes
  | lean => rfl
  | leanPure => exact Shape.write_merge rfl shapes

/-- Areas that are written and read again have the shapes they had, merged, and are written as they
    were. -/
theorem parse_write (d : Dialect) (areas : List Area) (ids : IdCounter)
    (hareas : ∀ a ∈ areas, a.shape.IsPlain d.isPlain) :
    (d.parse (Area.write d.grammar areas) ids).1.map Area.shape = d.merge (areas.map Area.shape) ∧
    Area.write d.grammar (d.parse (Area.write d.grammar areas) ids).1 =
      Area.write d.grammar areas := by
  have hshapes : ∀ s ∈ areas.map Area.shape, s.IsPlain d.isPlain := by
    intro s hs
    obtain ⟨a, ha, rfl⟩ := List.mem_map.1 hs
    exact hareas a ha
  have hread : (d.parse (Area.write d.grammar areas) ids).1.map Area.shape =
      d.merge (areas.map Area.shape) := by
    unfold parse Area.write
    rw [Area.map_shape_number, d.read_write hshapes]
  refine ⟨hread, ?_⟩
  show Shape.write d.grammar (List.map Area.shape _) = Shape.write d.grammar _
  rw [hread, d.write_merge]

/-- Two pieces of prose with an empty one between them come back as one, in front of a fenced block
    and a hint with a title. -/
theorem parse_write_prose :
    let areas := (Area.number [.leaf ⟨.text, ['a']⟩, .leaf ⟨.text, []⟩, .leaf ⟨.text, ['\n']⟩,
      .leaf ⟨.code, ['Q', '.']⟩, .container (.collapsible ['H']) [⟨.math, ['x']⟩]] {}).1
    (∀ a ∈ areas, a.shape.IsPlain coqmd.isPlain) ∧
    (coqmd.parse (Area.write coqmd.grammar areas) {}).1.map Area.shape =
      [.leaf ⟨.text, ['a', '\n']⟩, .leaf ⟨.code, ['Q', '.']⟩,
        .container (.collapsible ['H']) [⟨.math, ['x']⟩]] := by
  intro areas
  have hareas : ∀ a ∈ areas, a.shape.IsPlain coqmd.isPlain := by decide
  exact ⟨hareas, (parse_write coqmd areas {} hareas).1⟩

end Worksheet.Dialect
