import Worksheet.Proofs.Block.Accounting
import Worksheet.Proofs.Block.RoundTrip

/-! # Writing the blocks that were read

  Blocks that are read can be written, whatever the text looks like. A title is on its line and
  without blanks at its end, since that is how a title is read. A content is made of whole lines, so
  of line ends it has only line feeds. What can be in the way is a content with a line that closes a
  block: a closer outside any block, or that of a container inside a container. If there is none,
  what is written is read as it was (`Block.read_write_read`).
-/

namespace Worksheet.Block

section

variable {ls : List Text} {a b : Nat}

/-- A title is part of its line. -/
theorem of_title? {line title : Text} (h : title? line = some title) :
    title ⊆ line ∧ title.getLast?.any Text.isBlankChar = false := by
  obtain ⟨rest, hrest, rfl⟩ := Option.map_eq_some_iff.1 h
  obtain rfl := List.isPrefixOf?_eq_some_iff_append_eq.1 hrest
  exact ⟨fun c hc => List.mem_append_right _ (Text.mem_of_mem_trimEnd hc),
    Text.getLast?_trimEnd rest⟩

/-- What is read from lines without line ends can be the heading of a block. -/
theorem HeadingAt.fits {heading : Heading} (h : HeadingAt ls a heading b)
    (hls : ∀ line ∈ ls, '\r' ∉ line ∧ '\n' ∉ line) : HeadingFits heading := by
  cases h with
  | input => rfl
  | untitled => exact ⟨List.not_mem_nil, List.not_mem_nil, rfl⟩
  | titled _ _ hnext htitle =>
    obtain ⟨hcr, hlf⟩ := hls _ (List.mem_of_getElem? hnext)
    obtain ⟨hsub, htrim⟩ := of_title? htitle
    exact ⟨fun h => hcr (hsub h), fun h => hlf (hsub h), htrim⟩

theorem LeafAt.cr_not_mem {x : Stretch} {s : LeafShape} (h : LeafAt ls x s)
    (hls : ∀ line ∈ ls, '\r' ∉ line) : '\r' ∉ s.content := by
  rw [h.content_eq]
  intro hcr
  rcases Text.mem_of_mem_joinLines hcr with hlf | ⟨line, hline, hcr⟩
  · cases hlf
  · exact hls line (List.mem_of_mem_drop (List.mem_of_mem_take hline)) hcr

theorem LeavesAt.exists_leafAt {xs : List Stretch} {leaves : List LeafShape}
    (h : LeavesAt ls a xs leaves b) {s : LeafShape} (hs : s ∈ leaves) : ∃ x, LeafAt ls x s := by
  induction h with
  | nil a => exact nomatch hs
  | skip _ _ ih => exact ih hs
  | leaf hleaf _ ih =>
    rcases List.mem_cons.1 hs with rfl | hs
    · exact ⟨_, hleaf⟩
    · exact ih hs

/-- Areas that are read from lines without line ends are blocks, if none of their contents has a line
    that closes one. -/
theorem AreasAt.fits {places : List Place} {shapes : List Shape} (h : AreasAt ls a places shapes)
    (hls : ∀ line ∈ ls, '\r' ∉ line ∧ '\n' ∉ line)
    (hclose : ∀ s ∈ shapes, ∀ leaf ∈ s.leaves, ∀ line ∈ leaf.content.splitOn '\n',
      isCloser line = false) : ∀ s ∈ shapes, Fits s := by
  have hleaf : ∀ {a b : Nat} {xs : List Stretch} {leaves : List LeafShape},
      LeavesAt ls a xs leaves b →
      (∀ leaf ∈ leaves, ∀ line ∈ leaf.content.splitOn '\n', isCloser line = false) →
      ∀ s ∈ leaves, LeafFits s := by
    intro a b xs leaves hleaves hclose s hs
    obtain ⟨x, hx⟩ := hleaves.exists_leafAt hs
    exact ⟨hx.cr_not_mem fun line hline => (hls line hline).1, hclose s hs⟩
  induction h with
  | nil _ => exact nofun
  | blank _ _ _ ih => exact ih hclose
  | leaf hleaves _ ih =>
    obtain ⟨hfirst, hothers⟩ := List.forall_mem_cons.1 hclose
    exact List.forall_mem_cons.2 ⟨hleaf hleaves hfirst _ List.mem_cons_self, ih hothers⟩
  | container hheading hleaves _ ih =>
    obtain ⟨hfirst, hothers⟩ := List.forall_mem_cons.1 hclose
    exact List.forall_mem_cons.2 ⟨⟨hheading.fits hls, hleaf hleaves hfirst⟩, ih hothers⟩

end

/-- What is read is read again when it has been written, unless a content has a line that closes a
    block. -/
theorem read_write_read {source : Text} (hcr : '\r' ∉ source)
    (hclose : ∀ s ∈ read source, ∀ leaf ∈ s.leaves, ∀ line ∈ leaf.content.splitOn '\n',
      isCloser line = false) : read (Shape.write .lean (read source)) = read source := by
  have hls : ∀ line ∈ Text.lines source, '\r' ∉ line ∧ '\n' ∉ line := by
    intro line hline
    obtain ⟨hlf, hsub⟩ := Text.subset_of_mem_lines hline
    exact ⟨fun h => hcr (hsub h), hlf⟩
  have hstart : (Text.lines source).drop 0 = Text.lines source := List.drop_zero
  obtain ⟨places, hareas⟩ := exists_areasAt_readLines hstart
  exact read_write (hareas.fits hls hclose)

end Worksheet.Block
