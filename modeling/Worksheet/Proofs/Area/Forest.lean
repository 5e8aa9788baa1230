import Worksheet.Proofs.Area.Plain
import Worksheet.Rendering

/-! # Nested containers

  No document has a container inside a container, but a text can be written as if one had. A forest
  is what such a text is written from: areas whose containers may hold containers, to any depth. It
  is read with the containers inside containers as prose; how that prose comes about depends on the
  dialect, so it is a parameter here (`Forest.leaves`).
-/

namespace Worksheet

/-- Areas one after the other, whose containers may hold containers. -/
inductive Forest where
  | nil
  /-- A leaf in front of other areas. -/
  | leaf (leaf : LeafShape) (rest : Forest)
  /-- A container with what is in it, in front of other areas. -/
  | container (heading : Heading) (children rest : Forest)
deriving DecidableEq

namespace Heading

/-- The heading as a text has it, which says nothing of grades. -/
def ungraded : Heading → Heading
  | collapsible title => .collapsible title
  | input _ => .input .unattempted

/-- A heading whose title, if it can have one, is as required. -/
def Titled (isTitle : Text → Prop) : Heading → Prop
  | collapsible title => isTitle title
  | input _ => True

instance (isTitle : Text → Prop) [DecidablePred isTitle] :
    (heading : Heading) → Decidable (heading.Titled isTitle)
  | collapsible title => inferInstanceAs (Decidable (isTitle title))
  | input _ => inferInstanceAs (Decidable True)

end Heading

namespace Forest

/-! ### The written form -/

/-- The written form of areas, one after the other. -/
def write (o : OutputGrammar) : Forest → Text
  | nil => []
  | leaf s rest => (s.render o).text ++ rest.write o
  | container heading children rest =>
    ((o.ofHeading heading).around (children.write o)).text ++ rest.write o

/-- The written form of a container. -/
def enclosed (o : OutputGrammar) (heading : Heading) (children : Forest) : Text :=
  ((o.ofHeading heading).around (children.write o)).text

theorem write_container (o : OutputGrammar) (heading : Heading) (children rest : Forest) :
    (container heading children rest).write o = children.enclosed o heading ++ rest.write o := rfl

theorem enclosed_eq (o : OutputGrammar) (heading : Heading) (children : Forest) :
    children.enclosed o heading =
      (o.ofHeading heading).opening ++ (children.write o ++ (o.ofHeading heading).closing) :=
  List.append_assoc _ _ _

/-- Areas whose contents are all of plain characters and whose titles are as required. -/
def IsPlain (isPlain : Char → Bool) (isTitle : Text → Prop) : Forest → Prop
  | nil => True
  | leaf s rest => s.IsPlain isPlain ∧ rest.IsPlain isPlain isTitle
  | container heading children rest =>
    heading.Titled isTitle ∧ children.IsPlain isPlain isTitle ∧ rest.IsPlain isPlain isTitle

instance decidableIsPlain (isPlain : Char → Bool) (isTitle : Text → Prop) [DecidablePred isTitle] :
    (forest : Forest) → Decidable (forest.IsPlain isPlain isTitle)
  | nil => inferInstanceAs (Decidable True)
  | leaf s rest =>
    have := decidableIsPlain isPlain isTitle rest
    inferInstanceAs (Decidable (s.IsPlain isPlain ∧ _))
  | container heading children rest =>
    have := decidableIsPlain isPlain isTitle children
    have := decidableIsPlain isPlain isTitle rest
    inferInstanceAs (Decidable (heading.Titled isTitle ∧ _ ∧ _))

/-! ### What is read -/

/-- The areas as leaves inside a container, where a container is prose. -/
def leaves (prose : Heading → Forest → Text) : Forest → List LeafShape
  | nil => []
  | leaf s rest => s :: rest.leaves prose
  | container heading children rest => ⟨.text, prose heading children⟩ :: rest.leaves prose

/-- The areas at the top level, where a container holds leaves. -/
def shapes (inside : Forest → List LeafShape) : Forest → List Shape
  | nil => []
  | leaf s rest => .leaf s :: rest.shapes inside
  | container heading children rest =>
    .container heading.ungraded (inside children) :: rest.shapes inside

/-! ### Merging -/

/-- Areas with a text in front that is written as a leaf of the kind. -/
def prepend (kind : LeafKind) (text : Text) : Forest → Forest
  | leaf s rest =>
    if s.kind = kind then .leaf ⟨kind, text ++ s.content⟩ rest
    else if text = [] then .leaf s rest
    else .leaf ⟨kind, text⟩ (.leaf s rest)
  | forest => if text = [] then forest else .leaf ⟨kind, text⟩ forest

/-- Areas with the leaves of the kind merged at the top level: the empty ones dropped, and those
    that stand side by side joined. What is in a container stays as it is. -/
def merge (kind : LeafKind) : Forest → Forest
  | nil => nil
  | leaf s rest =>
    if s.kind = kind then prepend kind s.content (rest.merge kind) else .leaf s (rest.merge kind)
  | container heading children rest => .container heading children (rest.merge kind)

variable {isPlain : Char → Bool} {isTitle : Text → Prop}

theorem IsPlain.prepend {kind : LeafKind} {text : Text} {forest : Forest}
    (htext : ∀ c ∈ text, isPlain c = true) (h : forest.IsPlain isPlain isTitle) :
    (forest.prepend kind text).IsPlain isPlain isTitle := by
  -- a text in front of what it does not go into
  have hfront : (if text = [] then forest else .leaf ⟨kind, text⟩ forest).IsPlain isPlain
      isTitle := by
    split
    · exact h
    · exact ⟨htext, h⟩
  cases forest with
  | nil | container heading children rest => exact hfront
  | leaf s rest =>
    rw [Forest.prepend]
    split
    · exact ⟨List.forall_mem_append.2 ⟨htext, h.1⟩, h.2⟩
    · exact hfront

theorem IsPlain.merge (kind : LeafKind) {forest : Forest} (h : forest.IsPlain isPlain isTitle) :
    (forest.merge kind).IsPlain isPlain isTitle := by
  induction forest with
  | nil => trivial
  | leaf s rest ih =>
    rw [Forest.merge]
    split
    · exact IsPlain.prepend h.1 (ih h.2)
    · exact ⟨h.1, ih h.2⟩
  | container heading children rest _ ih => exact ⟨h.1, h.2.1, ih h.2.2⟩

end Forest

end Worksheet
