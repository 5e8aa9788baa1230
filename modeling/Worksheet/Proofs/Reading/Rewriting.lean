import Worksheet.Proofs.Area.Numbering
import Worksheet.Proofs.Block.Rewriting
import Worksheet.Proofs.Region.Rewriting
import Worksheet.Reading

/-! # Writing what was read in a dialect

  When a text is read and the areas are written in the same dialect, little changes. In the dialects
  with comments nothing does, as long as there are no containers, but for a comment at the end that
  is never closed. In the dialect of blocks the text may change a good deal, since stray lines
  become blocks and blank lines between blocks are left out. But that happens once: from then on the
  text stays as it is.
-/

namespace Worksheet.Dialect

/-! ### Comments -/

/-- How the dialects in which regions are comments find them. -/
def commentGrammar? : Dialect → Option RegionGrammar
  | coq => some .coq
  | leanPure => some .leanPure
  | coqmd | lean => none

/-- What the comments that open containers begin with. -/
def containerFronts : Dialect → List Text
  | coq => ["(* begin details".toList, "(* begin input".toList]
  | leanPure => ["/- begin details".toList, "/- begin input".toList]
  | coqmd | lean => []

variable {d : Dialect} {g : RegionGrammar} {source : Text}

theorem mirrors_of_commentGrammar? (hd : d.commentGrammar? = some g) : g.Mirrors d.grammar := by
  cases d with
  | coq =>
    obtain rfl := Option.some.inj hd
    exact RegionGrammar.mirrors_coq
  | leanPure =>
    obtain rfl := Option.some.inj hd
    exact RegionGrammar.mirrors_leanPure
  | coqmd | lean => cases hd

theorem read_of_commentGrammar? (hd : d.commentGrammar? = some g) (s : Text) :
    d.read s = g.read s := by
  cases d with
  | coq | leanPure =>
    obtain rfl := Option.some.inj hd
    rfl
  | coqmd | lean => cases hd

/-- A region is a leaf, or its marker begins as that of a container. -/
theorem leaf_or_front_of_mem_rules (hd : d.commentGrammar? = some g) {r : Rule}
    (hr : r ∈ g.rules) :
    (∃ kind, r.kind = .leaf kind) ∨ ∃ front ∈ d.containerFronts, front <+: r.opening.front := by
  cases d with
  | coq | leanPure =>
    obtain rfl := Option.some.inj hd
    rcases List.mem_cons.1 hr with rfl | hr
    · exact .inl ⟨.math, rfl⟩
    rcases List.mem_cons.1 hr with rfl | hr
    · exact .inl ⟨.text, rfl⟩
    rcases List.mem_cons.1 hr with rfl | hr
    · exact .inr ⟨_, List.mem_cons_self, List.prefix_rfl⟩
    · obtain rfl := List.mem_singleton.1 hr
      exact .inr ⟨_, List.mem_cons_of_mem _ List.mem_cons_self, List.prefix_append _ _⟩
  | coqmd | lean => cases hd

theorem containerFree (hd : d.commentGrammar? = some g)
    (hsource : ∀ front ∈ d.containerFronts, ¬front <:+: source) : g.ContainerFree source := by
  intro r hr hopening
  rcases leaf_or_front_of_mem_rules hd hr with hleaf | ⟨front, hfront, hbegins⟩
  · exact hleaf
  · exact absurd (hbegins.isInfix.trans hopening) (hsource front hfront)

/-- A text without containers whose areas are written again is the text it was, except that a region
    at its end that is never closed is closed by its delimiter. Either way what was written is read
    as the text was. -/
theorem write_parse_comments (hd : d.commentGrammar? = some g)
    (hsource : ∀ front ∈ d.containerFronts, ¬front <:+: source) (ids ids' : IdCounter) :
    let areas := (d.parse source ids).1
    (∀ kind, g.openEnd? source = some kind →
      Area.write d.grammar areas = source ++ d.grammar.closing kind) ∧
    (Area.write d.grammar areas = source ↔ g.openEnd? source = none) ∧
    (d.parse (Area.write d.grammar areas) ids').1.map Area.shape = areas.map Area.shape := by
  intro areas
  have hfree := containerFree hd hsource
  have hmirrors := mirrors_of_commentGrammar? hd
  have hshapes : areas.map Area.shape = g.read source :=
    (Area.map_shape_number _ ids).trans (read_of_commentGrammar? hd source)
  have hwrite : Area.write d.grammar areas = source ++ g.missing d.grammar source := by
    unfold Area.write
    rw [hshapes, hmirrors.write_read hfree]
  refine ⟨?_, ?_, ?_⟩
  · intro kind hkind
    have hmissing : g.missing d.grammar source = d.grammar.closing kind := by
      unfold RegionGrammar.missing
      rw [hkind]
      rfl
    rw [hwrite, hmissing]
  · rw [hwrite, List.append_right_eq_self, hmirrors.missing_eq_nil_iff hfree]
  · show List.map Area.shape (Area.number (d.read _) ids').1 = _
    rw [Area.map_shape_number, read_of_commentGrammar? hd, Area.write, hshapes,
      hmirrors.read_write_read hfree]

/-- Mathematics in a comment, and behind it a comment whose end marker is too close to its opening
    marker to be one: a second end marker is written, and the first is prose. -/
theorem write_parse_comments_overlap :
    let source := "x(** $$1$$ *)(** *)".toList
    (∀ front ∈ coq.containerFronts, ¬front <:+: source) ∧
    Area.write coq.grammar (coq.parse source {}).1 = source ++ " *)".toList := by
  intro source
  have hsource : ∀ front ∈ coq.containerFronts, ¬front <:+: source := by decide
  have hend : RegionGrammar.coq.openEnd? source = some (.leaf .text) := by decide +kernel
  exact ⟨hsource, (write_parse_comments rfl hsource {} {}).1 _ hend⟩

/-! ### Blocks -/

/-- Blocks that are read are read again when they have been written, and are written as before,
    unless a content has a line that closes a block. -/
theorem parse_write_parse_lean (hcr : '\r' ∉ source) (ids ids' : IdCounter)
    (hclose : ∀ s ∈ (lean.parse source ids).1.map Area.shape, ∀ leaf ∈ s.leaves,
      ∀ line ∈ leaf.content.splitOn '\n', Block.isCloser line = false) :
    let areas := (lean.parse source ids).1
    let again := (lean.parse (Area.write lean.grammar areas) ids').1
    again.map Area.shape = areas.map Area.shape ∧
    Area.write lean.grammar again = Area.write lean.grammar areas := by
  intro areas again
  have hshapes : areas.map Area.shape = Block.read source := Area.map_shape_number _ ids
  rw [hshapes] at hclose
  have hagain : again.map Area.shape = areas.map Area.shape := by
    have hnumber : again.map Area.shape = Block.read (Area.write lean.grammar areas) :=
      Area.map_shape_number _ ids'
    rw [hnumber, Area.write, hshapes]
    exact Block.read_write_read hcr hclose
  refine ⟨hagain, ?_⟩
  unfold Area.write
  rw [hagain]

/-- A stray line, blank lines, blanks behind markers, a blank title, and two containers that are
    never closed. -/
theorem parse_write_parse_lean_stray :
    let source := "stray\n\n:::collapsible \n#  \n\n:::code\t\nx\n::: \n:::input\n:::text".toList
    let shapes : List Shape := [.leaf ⟨.text, "stray".toList⟩, .container (.collapsible [])
      [⟨.code, ['x']⟩, ⟨.text, ":::input\n:::text".toList⟩]]
    '\r' ∉ source ∧
    (∀ s ∈ (lean.parse source {}).1.map Area.shape, ∀ leaf ∈ s.leaves,
      ∀ line ∈ leaf.content.splitOn '\n', Block.isCloser line = false) ∧
    (lean.parse (Area.write lean.grammar (lean.parse source {}).1) {}).1.map Area.shape =
      shapes := by
  intro source shapes
  have hcr : '\r' ∉ source := by decide
  have hread : (lean.parse source {}).1.map Area.shape = shapes := by decide +kernel
  have hclose : ∀ s ∈ (lean.parse source {}).1.map Area.shape, ∀ leaf ∈ s.leaves,
      ∀ line ∈ leaf.content.splitOn '\n', Block.isCloser line = false := by
    rw [hread]
    decide
  exact ⟨hcr, hclose, (parse_write_parse_lean hcr {} {} hclose).1.trans hread⟩

end Worksheet.Dialect
