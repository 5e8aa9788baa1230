import Worksheet.Area

/-! # Plain shapes

  Nothing is escaped when areas are written, so they can be read back only if their contents and
  titles hold nothing that means something in the surface syntax. Which characters of a content mean
  nothing depends on the syntax; titles are plain in all of them or in none. A grade leaves no trace
  in what is written.
-/

namespace Worksheet

/-- A title that is one in every syntax. -/
def Text.IsPlainTitle (title : Text) : Prop :=
  (∀ c ∈ title, c ∉ ['*', '-', '"', '\r', '\n']) ∧ title.getLast?.any Text.isBlankChar = false

theorem Text.IsPlainTitle.ne {title : Text} (h : title.IsPlainTitle) {c : Char} (hc : c ∈ title) :
    c ≠ '*' ∧ c ≠ '-' ∧ c ≠ '"' ∧ c ≠ '\r' ∧ c ≠ '\n' := by
  have hnot := h.1 c hc
  simp only [List.mem_cons, List.not_mem_nil, or_false, not_or] at hnot
  exact hnot

instance (title : Text) : Decidable title.IsPlainTitle :=
  have := List.decidableBAll (· ∉ ['*', '-', '"', '\r', '\n']) title
  inferInstanceAs (Decidable (_ ∧ _))

/-- A heading that can be told from what is written. -/
def Heading.IsPlain : Heading → Prop
  | .collapsible title => title.IsPlainTitle
  | .input grade => grade = .unattempted

/-- A leaf whose content is all of plain characters. -/
def LeafShape.IsPlain (isPlain : Char → Bool) (s : LeafShape) : Prop :=
  ∀ c ∈ s.content, isPlain c = true

/-- An area whose heading and contents are plain. -/
def Shape.IsPlain (isPlain : Char → Bool) : Shape → Prop
  | .leaf s => s.IsPlain isPlain
  | .container heading children => heading.IsPlain ∧ ∀ s ∈ children, s.IsPlain isPlain

instance (heading : Heading) : Decidable heading.IsPlain :=
  match heading with
  | .collapsible title => inferInstanceAs (Decidable title.IsPlainTitle)
  | .input grade => inferInstanceAs (Decidable (grade = .unattempted))

instance (isPlain : Char → Bool) (s : LeafShape) : Decidable (s.IsPlain isPlain) :=
  List.decidableBAll (isPlain · = true) s.content

instance (isPlain : Char → Bool) (s : Shape) : Decidable (s.IsPlain isPlain) :=
  match s with
  | .leaf s => inferInstanceAs (Decidable (s.IsPlain isPlain))
  | .container heading children =>
    have := List.decidableBAll (LeafShape.IsPlain isPlain) children
    inferInstanceAs (Decidable (heading.IsPlain ∧ _))

end Worksheet
