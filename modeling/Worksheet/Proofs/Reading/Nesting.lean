import Worksheet.Proofs.Block.Nesting
import Worksheet.Proofs.Reading.RoundTrip
import Worksheet.Proofs.Region.Nesting

/-! # Reading containers inside containers

  In the dialects of regions a container is read up to its own end, whatever is nested in it, and a
  container inside it is kept as prose, with its markers and all that is nested in it in turn. In
  the dialect of blocks that is so for two levels of containers. With a third the prose stops at the
  closer of a container in it, and the closers that are left end other blocks or become prose.
-/

namespace Worksheet.Dialect

/-- Reading areas that were written with containers inside containers gives the outermost areas,
    merged. A container holds the areas that were directly inside it, merged too, where each
    container has become one piece of prose: its whole written form. -/
theorem parse_write_nested {d : Dialect} {kind : LeafKind} (hd : d.bareKind? = some kind)
    {forest : Forest} (hforest : forest.IsPlain d.isPlain (Text.IsTitleOf d.isPlain))
    (ids : IdCounter) :
    (d.parse (forest.write d.grammar) ids).1.map Area.shape =
      (forest.merge kind).shapes fun inside =>
        (inside.merge kind).leaves (Forest.enclosed d.grammar) := by
  unfold parse
  rw [Area.map_shape_number]
  cases d with
  | coq =>
    obtain rfl := Option.some.inj hd
    exact RegionGrammar.nests_coq.read_write hforest
  | coqmd =>
    obtain rfl := Option.some.inj hd
    exact RegionGrammar.nests_coqmd.read_write hforest
  | lean => exact nomatch hd
  | leanPure =>
    obtain rfl := Option.some.inj hd
    exact RegionGrammar.nests_leanPure.read_write hforest

/-- A hint in an input in a hint: the outer hint ends at its own end, and the prose around the input
    stays apart from the input, which is prose as well. -/
theorem parse_write_nested_hint :
    let inner : Forest := .leaf ⟨.code, "Q.".toList⟩
      (.container (.collapsible []) (.leaf ⟨.math, ['x']⟩ .nil) .nil)
    let forest : Forest := .container (.collapsible ['H'])
      (.leaf ⟨.text, ['a']⟩ (.leaf ⟨.text, []⟩ (.container (.input .correct) inner
        (.leaf ⟨.text, ['b']⟩ (.leaf ⟨.text, ['c']⟩ .nil))))) (.leaf ⟨.text, ['d']⟩ .nil)
    forest.IsPlain coqmd.isPlain (Text.IsTitleOf coqmd.isPlain) ∧
    (coqmd.parse (forest.write coqmd.grammar) {}).1.map Area.shape =
      [.container (.collapsible ['H']) [⟨.text, ['a']⟩,
        ⟨.text, "<input-area>\n```coq\nQ.\n```\n<hint>$$x$$</hint></input-area>".toList⟩,
        ⟨.text, ['b', 'c']⟩], .leaf ⟨.text, ['d']⟩] := by
  intro inner forest
  have hforest : forest.IsPlain coqmd.isPlain (Text.IsTitleOf coqmd.isPlain) := by decide
  have hread := parse_write_nested (d := coqmd) rfl hforest {}
  exact ⟨hforest, hread⟩

/-- In the dialect of blocks, reading areas that were written with containers inside containers
    gives the outermost areas, with each container inside one of them as prose that is all of its
    lines, exactly if containers are nested in at most two levels. -/
theorem parse_write_nested_lean_iff {forest : Forest}
    (hforest : forest.IsPlain lean.isPlain Block.IsTitle) (ids : IdCounter) :
    (lean.parse (forest.write lean.grammar) ids).1.map Area.shape =
      forest.shapes (Forest.leaves Block.prose) ↔ forest.depth ≤ 2 := by
  unfold parse
  rw [Area.map_shape_number]
  exact Block.read_write_iff_depth hforest

/-- An input in a collapsible with a title. -/
theorem parse_write_nested_lean_two :
    let forest : Forest := .container (.collapsible ['H']) (.container (.input .correct)
      (.leaf ⟨.code, ['x']⟩ .nil) (.leaf ⟨.math, ['y']⟩ .nil)) .nil
    forest.IsPlain lean.isPlain Block.IsTitle ∧
    (lean.parse (forest.write lean.grammar) {}).1.map Area.shape =
      [.container (.collapsible ['H'])
        [⟨.text, ":::input\n:::code\nx\n:::\n:::".toList⟩, ⟨.math, ['y']⟩]] := by
  intro forest
  have hforest : forest.IsPlain lean.isPlain Block.IsTitle := by decide
  exact ⟨hforest, (parse_write_nested_lean_iff hforest {}).2 (by decide)⟩

/-- A third level: the prose stops one closer early, the closer of the collapsible ends the outer
    input, and that of the outer input becomes prose. -/
theorem parse_write_nested_lean_three :
    let forest : Forest := .container (.input .unattempted) (.container (.collapsible [])
      (.container (.input .unattempted) (.leaf ⟨.code, ['x']⟩ .nil) .nil) .nil) .nil
    forest.IsPlain lean.isPlain Block.IsTitle ∧
    (lean.parse (forest.write lean.grammar) {}).1.map Area.shape =
      [.container (.input .unattempted)
        [⟨.text, ":::collapsible\n:::input\n:::code\nx\n:::\n:::".toList⟩],
        .leaf ⟨.text, ":::".toList⟩] ∧
    (lean.parse (forest.write lean.grammar) {}).1.map Area.shape ≠
      forest.shapes (Forest.leaves Block.prose) := by
  intro forest
  have hread : (lean.parse (forest.write lean.grammar) {}).1.map Area.shape =
      [.container (.input .unattempted)
        [⟨.text, ":::collapsible\n:::input\n:::code\nx\n:::\n:::".toList⟩],
        .leaf ⟨.text, ":::".toList⟩] := by decide +kernel
  refine ⟨by decide, hread, ?_⟩
  rw [hread]
  decide

end Worksheet.Dialect
