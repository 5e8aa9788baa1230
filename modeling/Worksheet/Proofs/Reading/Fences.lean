import Worksheet.Proofs.Reading.RoundTrip

/-! # Fenced blocks

  A fenced block of code is read with the lines between its fences, however many there are, except
  when there is none. The line end behind the opening fence belongs to that fence and the line end
  before the closing one to the closing fence. A block without lines has one line end for both, so
  its closing fence is no fence, and the block goes on behind it.
-/

namespace Worksheet

namespace RegionGrammar

/-- The rule of fenced code. -/
def fenceRule : Rule := ⟨.leaf .code, .fenceOpening, .fenceClosing⟩

theorem openingAt?_fence (rest : Text) :
    coqmd.openingAt? ("\n```coq\n".toList ++ rest) =
      some (fenceRule, ⟨"\n```coq\n".toList, [], rest⟩) := rfl

/-- Right behind the opening fence a closing fence is none. -/
theorem find?_fenceClosing {after : Text} (hafter : ∀ c ∈ after, isPlainMarkdown c = true) :
    Marker.fenceClosing.find? ("```\n".toList ++ after) = none := by
  have hplain : ∀ c ∈ '\n' :: after, isPlainMarkdown c = true :=
    List.forall_mem_cons.2 ⟨rfl, hafter⟩
  have hclear : Marker.fenceClosing.Clear ('\n' :: after) [] :=
    (Marker.heralded_fenceClosing rfl).clear rfl hplain nofun
  -- a fence begins with the end of a line
  have hclear' : Marker.fenceClosing.Clear ("```\n".toList ++ after) [] :=
    ⟨rfl, rfl, rfl, hclear⟩
  have hfind := Marker.find?_append hclear'
  rw [List.append_nil] at hfind
  exact hfind

/-- A block without lines takes all that follows. -/
theorem segments_empty_fence {before after : Text} (hbefore : ∀ c ∈ before, isPlainMarkdown c = true)
    (hafter : ∀ c ∈ after, isPlainMarkdown c = true) :
    coqmd.segments (before ++ ("\n```coq\n".toList ++ ("```\n".toList ++ after))) =
      Segment.plain? before ++
        [.region (.leaf .code) [] "\n```coq\n".toList ("```\n".toList ++ after) none] := by
  have hopen := openingAt?_fence ("```\n".toList ++ after)
  have hhead : ("\n```coq\n".toList ++ ("```\n".toList ++ after)).head? ≠ some '`' := by
    show some '\n' ≠ some '`'
    decide
  have hclear : ∀ r ∈ coqmd.rules,
      r.opening.Clear before ("\n```coq\n".toList ++ ("```\n".toList ++ after)) :=
    fun r hr => (undoes_coqmd.clear_plain hr hbefore hhead).1
  have hnext := nextOpening?_append hclear
  have hregion : fenceRule.region ⟨"\n```coq\n".toList, [], "```\n".toList ++ after⟩ =
      (.region (.leaf .code) [] "\n```coq\n".toList ("```\n".toList ++ after) none, []) := by
    unfold Rule.region
    have hclose : fenceRule.close? ("```\n".toList ++ after) = none := find?_fenceClosing hafter
    rw [hclose]
    rfl
  have hnil : coqmd.segments [] = [] := segments_of_nextOpening?_eq_none rfl
  rw [nextOpening?_of_openingAt? hopen] at hnext
  rw [segments_of_nextOpening? hnext, hregion, hnil]
  exact congrArg (fun before => Segment.plain? before ++ _) (List.append_nil before)

end RegionGrammar

namespace Dialect

/-- A fenced block with its lines, and the line end before it. -/
def fenced (lines : List Text) : Text :=
  "\n```coq\n".toList ++ (lines.flatMap (· ++ ['\n']) ++ "```\n".toList)

/-- Prose, unless there is none. -/
def prose (text : Text) : List Shape := if text = [] then [] else [.leaf ⟨.text, text⟩]

theorem fenced_eq {lines : List Text} (hlines : lines ≠ []) :
    fenced lines = ((Shape.leaf ⟨.code, Text.joinLines lines⟩).render coqmd.grammar).text := by
  unfold fenced
  rw [Text.flatMap_lf hlines]
  show _ = "\n```coq\n".toList ++ Text.joinLines lines ++ "\n```\n".toList
  simp

theorem merge_fenced (before after content : Text) :
    coqmd.merge [.leaf ⟨.text, before⟩, .leaf ⟨.code, content⟩, .leaf ⟨.text, after⟩] =
      prose before ++ .leaf ⟨.code, content⟩ :: prose after := by
  have hrest : Shape.merge .text [.leaf ⟨.code, content⟩, .leaf ⟨.text, after⟩] =
      .leaf ⟨.code, content⟩ :: prose after := rfl
  show Shape.merge .text (.leaf ⟨.text, before⟩ :: _) = _
  rw [Shape.merge, if_pos rfl, hrest]
  unfold prose
  by_cases hbefore : before = []
  · rw [if_pos hbefore, hbefore]
    rfl
  · rw [if_neg hbefore]
    have hcode : LeafKind.code ≠ .text := by decide
    rw [Shape.prepend, if_neg hcode, if_neg hbefore]
    rfl

/-- A block that has lines is read with them. -/
theorem read_fenced {before after : Text} {lines : List Text} (hne : lines ≠ [])
    (hbefore : ∀ c ∈ before, coqmd.isPlain c = true)
    (hlines : ∀ line ∈ lines, ∀ c ∈ line, coqmd.isPlain c = true)
    (hafter : ∀ c ∈ after, coqmd.isPlain c = true) :
    coqmd.read (before ++ fenced lines ++ after) =
      prose before ++ .leaf ⟨.code, Text.joinLines lines⟩ :: prose after := by
  have hcontent : ∀ c ∈ Text.joinLines lines, coqmd.isPlain c = true := by
    intro c hc
    rcases Text.mem_of_mem_joinLines hc with rfl | ⟨line, hline, hc⟩
    · rfl
    · exact hlines line hline c hc
  have hshapes : ∀ s ∈ [Shape.leaf ⟨.text, before⟩, .leaf ⟨.code, Text.joinLines lines⟩,
      .leaf ⟨.text, after⟩], s.IsPlain coqmd.isPlain :=
    List.forall_mem_cons.2 ⟨hbefore, List.forall_mem_cons.2
      ⟨hcontent, List.forall_mem_singleton.2 hafter⟩⟩
  have hwrite : Shape.write coqmd.grammar [.leaf ⟨.text, before⟩,
      .leaf ⟨.code, Text.joinLines lines⟩, .leaf ⟨.text, after⟩] =
        before ++ fenced lines ++ after := by
    have htext : ∀ content : Text, ((Shape.leaf ⟨.text, content⟩).render coqmd.grammar).text =
        content := fun content => List.append_nil content
    rw [Shape.write_cons, Shape.write_cons, Shape.write_cons, htext, htext, ← fenced_eq hne,
      List.append_assoc]
    exact congrArg (fun after => before ++ (fenced lines ++ after)) (List.append_nil after)
  rw [← hwrite, read_write coqmd hshapes, merge_fenced]

/-- A block that has none takes what follows. -/
theorem read_fenced_nil {before after : Text} (hbefore : ∀ c ∈ before, coqmd.isPlain c = true)
    (hafter : ∀ c ∈ after, coqmd.isPlain c = true) :
    coqmd.read (before ++ fenced [] ++ after) =
      prose before ++ [.leaf ⟨.code, "```\n".toList ++ after⟩] := by
  have hsource : before ++ fenced [] ++ after =
      before ++ ("\n```coq\n".toList ++ ("```\n".toList ++ after)) := by
    unfold fenced
    rw [List.flatMap_nil, List.nil_append]
    simp only [List.append_assoc]
  show RegionGrammar.coqmd.read _ = _
  unfold RegionGrammar.read prose
  rw [hsource, RegionGrammar.segments_empty_fence hbefore hafter, List.map_append]
  unfold Segment.plain?
  by_cases hnil : before = []
  · rw [if_pos hnil, if_pos hnil]
    rfl
  · rw [if_neg hnil, if_neg hnil]
    rfl

/-- Between two pieces of prose, a fenced block is read with its lines exactly if it has one. A block
    without lines takes the rest of the text, its closing fence included. -/
theorem parse_fenced_iff {before after : Text} {lines : List Text}
    (hbefore : ∀ c ∈ before, coqmd.isPlain c = true)
    (hlines : ∀ line ∈ lines, ∀ c ∈ line, coqmd.isPlain c = true)
    (hafter : ∀ c ∈ after, coqmd.isPlain c = true) (ids : IdCounter) :
    ((coqmd.parse (before ++ fenced lines ++ after) ids).1.map Area.shape =
        prose before ++ .leaf ⟨.code, Text.joinLines lines⟩ :: prose after ↔ lines ≠ []) ∧
    (lines = [] → (coqmd.parse (before ++ fenced lines ++ after) ids).1.map Area.shape =
      prose before ++ [.leaf ⟨.code, "```\n".toList ++ after⟩]) := by
  unfold parse
  rw [Area.map_shape_number]
  by_cases hne : lines = []
  · subst hne
    rw [read_fenced_nil hbefore hafter]
    refine ⟨iff_of_false ?_ fun h => h rfl, fun _ => rfl⟩
    intro h
    have hcode := (List.cons.inj (List.append_cancel_left h)).1
    exact nomatch (LeafShape.mk.inj (Shape.leaf.inj hcode)).2
  · exact ⟨iff_of_true (read_fenced hne hbefore hlines hafter) hne, fun h => absurd h hne⟩

/-- Two lines, one of them empty, between prose that ends and begins with a line feed. -/
theorem parse_fenced_blank_line :
    let before : Text := ['a', '\n']
    let lines : List Text := [['Q', '.'], []]
    let after : Text := ['\n', 'b']
    ((∀ c ∈ before, coqmd.isPlain c = true) ∧
      (∀ line ∈ lines, ∀ c ∈ line, coqmd.isPlain c = true) ∧
      ∀ c ∈ after, coqmd.isPlain c = true) ∧
    (coqmd.parse (before ++ fenced lines ++ after) {}).1.map Area.shape =
      [.leaf ⟨.text, ['a', '\n']⟩, .leaf ⟨.code, ['Q', '.', '\n']⟩, .leaf ⟨.text, ['\n', 'b']⟩] := by
  intro before lines after
  have hbefore : ∀ c ∈ before, coqmd.isPlain c = true := List.all_eq_true.1 rfl
  have hall : ∀ line ∈ lines, line.all coqmd.isPlain = true := by decide
  have hlines : ∀ line ∈ lines, ∀ c ∈ line, coqmd.isPlain c = true :=
    fun line hline => List.all_eq_true.1 (hall line hline)
  have hafter : ∀ c ∈ after, coqmd.isPlain c = true := List.all_eq_true.1 rfl
  exact ⟨⟨hbefore, hlines, hafter⟩,
    (parse_fenced_iff hbefore hlines hafter {}).1.2 (List.cons_ne_nil _ _)⟩

/-- A block without lines and with nothing around it: the closing fence is read as code. -/
theorem parse_fenced_nil :
    (coqmd.parse (fenced []) {}).1.map Area.shape = [.leaf ⟨.code, "```\n".toList⟩] ∧
    (coqmd.parse (fenced []) {}).1.map Area.shape ≠ [.leaf ⟨.code, []⟩] := by
  have hread : (coqmd.parse (fenced []) {}).1.map Area.shape =
      [.leaf ⟨.code, "```\n".toList⟩] := by decide +kernel
  refine ⟨hread, ?_⟩
  rw [hread]
  decide

end Dialect

end Worksheet
