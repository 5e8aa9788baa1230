import Worksheet.Rendering

/-! # Merging

  Leaves of a kind that is written without delimiters cannot be told apart once they are written one
  after the other, and an empty one leaves no trace. Merging drops the empty ones and joins those
  that stand side by side, at the top level and in each container. It does not change what is
  written.
-/

namespace Worksheet

/-! ### Leaves -/

namespace LeafShape

/-- Leaves with a text in front that is written as a leaf of the kind: it goes into the first leaf
    if that is of this kind too, and otherwise is a leaf of its own unless it is empty. -/
def prepend (kind : LeafKind) (text : Text) : List LeafShape → List LeafShape
  | [] => if text = [] then [] else [⟨kind, text⟩]
  | s :: rest =>
    if s.kind = kind then ⟨kind, text ++ s.content⟩ :: rest
    else if text = [] then s :: rest
    else ⟨kind, text⟩ :: s :: rest

/-- Leaves with those of the kind merged. -/
def merge (kind : LeafKind) : List LeafShape → List LeafShape
  | [] => []
  | s :: rest =>
    if s.kind = kind then prepend kind s.content (merge kind rest) else s :: merge kind rest

theorem write_cons (g : OutputGrammar) (s : LeafShape) (rest : List LeafShape) :
    write g (s :: rest) = (s.render g).text ++ write g rest := rfl

theorem text_render (g : OutputGrammar) (s : LeafShape) :
    (s.render g).text =
      (g.ofLeafKind s.kind).opening ++ (s.content ++ (g.ofLeafKind s.kind).closing) :=
  List.append_assoc _ _ _

variable {g : OutputGrammar} {kind : LeafKind}

theorem text_render_of_bare (h : g.ofLeafKind kind = ⟨[], []⟩) {s : LeafShape}
    (hs : s.kind = kind) : (s.render g).text = s.content := by
  rw [text_render, hs, h]
  exact List.append_nil _

theorem write_prepend (h : g.ofLeafKind kind = ⟨[], []⟩) (text : Text) (leaves : List LeafShape) :
    write g (prepend kind text leaves) = text ++ write g leaves := by
  cases leaves with
  | nil =>
    rw [prepend]
    by_cases htext : text = []
    · rw [if_pos htext, htext]
      rfl
    · rw [if_neg htext, write_cons, text_render_of_bare h rfl]
  | cons s rest =>
    rw [prepend]
    by_cases hs : s.kind = kind
    · rw [if_pos hs, write_cons, write_cons, text_render_of_bare h rfl, text_render_of_bare h hs,
        List.append_assoc]
    · rw [if_neg hs]
      by_cases htext : text = []
      · rw [if_pos htext, htext]
        rfl
      · rw [if_neg htext, write_cons, text_render_of_bare h rfl]

/-- Merging leaves does not change what is written. -/
theorem write_merge (h : g.ofLeafKind kind = ⟨[], []⟩) (leaves : List LeafShape) :
    write g (merge kind leaves) = write g leaves := by
  induction leaves with
  | nil => rfl
  | cons s rest ih =>
    unfold merge
    by_cases hs : s.kind = kind
    · rw [if_pos hs, write_prepend h, write_cons, text_render_of_bare h hs, ih]
    · rw [if_neg hs, write_cons, write_cons, ih]

end LeafShape

/-! ### Shapes -/

namespace Shape

/-- Shapes with a text in front that is written as a leaf of the kind. -/
def prepend (kind : LeafKind) (text : Text) : List Shape → List Shape
  | .leaf s :: rest =>
    if s.kind = kind then .leaf ⟨kind, text ++ s.content⟩ :: rest
    else if text = [] then .leaf s :: rest
    else .leaf ⟨kind, text⟩ :: .leaf s :: rest
  | shapes => if text = [] then shapes else .leaf ⟨kind, text⟩ :: shapes

/-- Shapes with the leaves of the kind merged, in each run at the top level and in each
    container. -/
def merge (kind : LeafKind) : List Shape → List Shape
  | [] => []
  | .leaf s :: rest =>
    if s.kind = kind then prepend kind s.content (merge kind rest) else .leaf s :: merge kind rest
  | .container heading children :: rest =>
    .container heading (LeafShape.merge kind children) :: merge kind rest

theorem write_cons (g : OutputGrammar) (s : Shape) (rest : List Shape) :
    write g (s :: rest) = (s.render g).text ++ write g rest := rfl

theorem text_render_container (g : OutputGrammar) (heading : Heading) (children : List LeafShape) :
    ((Shape.container heading children).render g).text =
      (g.ofHeading heading).opening ++
        (LeafShape.write g children ++ (g.ofHeading heading).closing) :=
  List.append_assoc _ _ _

theorem write_map_leaf (g : OutputGrammar) (leaves : List LeafShape) :
    write g (leaves.map Shape.leaf) = LeafShape.write g leaves :=
  List.flatMap_map _ _ _

theorem prepend_map_leaf (kind : LeafKind) (text : Text) (leaves : List LeafShape) :
    prepend kind text (leaves.map Shape.leaf) = (LeafShape.prepend kind text leaves).map .leaf := by
  cases leaves with
  | nil =>
    show (if text = [] then [] else _) = List.map _ (if text = [] then [] else _)
    split <;> rfl
  | cons s rest =>
    show (if s.kind = kind then _ else if text = [] then _ else _) =
      List.map _ (if s.kind = kind then _ else if text = [] then _ else _)
    split
    · rfl
    · split <;> rfl

theorem merge_map_leaf (kind : LeafKind) (leaves : List LeafShape) :
    merge kind (leaves.map Shape.leaf) = (LeafShape.merge kind leaves).map .leaf := by
  induction leaves with
  | nil => rfl
  | cons s rest ih =>
    show (if s.kind = kind then prepend kind s.content (merge kind (rest.map .leaf))
      else .leaf s :: merge kind (rest.map .leaf)) = _
    unfold LeafShape.merge
    by_cases hs : s.kind = kind
    · rw [if_pos hs, if_pos hs, ih, prepend_map_leaf]
    · rw [if_neg hs, if_neg hs, ih]
      rfl

theorem eq_leaf_or_mem_of_mem_prepend {kind : LeafKind} {text : Text} {shapes : List Shape}
    {x : Shape} (hx : x ∈ prepend kind text shapes) : (∃ s, x = .leaf s) ∨ x ∈ shapes := by
  unfold prepend at hx
  split at hx
  · next s rest =>
    split at hx
    · rcases List.mem_cons.1 hx with rfl | hx
      · exact .inl ⟨_, rfl⟩
      · exact .inr (List.mem_cons_of_mem _ hx)
    · split at hx
      · exact .inr hx
      · rcases List.mem_cons.1 hx with rfl | hx
        · exact .inl ⟨_, rfl⟩
        · exact .inr hx
  · split at hx
    · exact .inr hx
    · rcases List.mem_cons.1 hx with rfl | hx
      · exact .inl ⟨_, rfl⟩
      · exact .inr hx

/-- Merging keeps the containers, with their leaves merged. -/
theorem eq_leaf_or_container_of_mem_merge {kind : LeafKind} {shapes : List Shape} {x : Shape}
    (hx : x ∈ merge kind shapes) :
    (∃ s, x = .leaf s) ∨ ∃ heading children, .container heading children ∈ shapes ∧
      x = .container heading (LeafShape.merge kind children) := by
  induction shapes with
  | nil => exact nomatch hx
  | cons s rest ih =>
    have hrest : x ∈ merge kind rest → (∃ s, x = .leaf s) ∨ ∃ heading children,
        .container heading children ∈ s :: rest ∧
          x = .container heading (LeafShape.merge kind children) := by
      intro hx
      rcases ih hx with hleaf | ⟨heading, children, hmem, hx⟩
      · exact .inl hleaf
      · exact .inr ⟨heading, children, List.mem_cons_of_mem _ hmem, hx⟩
    cases s with
    | leaf s =>
      rw [merge] at hx
      by_cases hs : s.kind = kind
      · rw [if_pos hs] at hx
        rcases eq_leaf_or_mem_of_mem_prepend hx with hleaf | hx
        · exact .inl hleaf
        · exact hrest hx
      · rw [if_neg hs] at hx
        rcases List.mem_cons.1 hx with rfl | hx
        · exact .inl ⟨s, rfl⟩
        · exact hrest hx
    | container heading children =>
      rcases List.mem_cons.1 hx with rfl | hx
      · exact .inr ⟨heading, children, List.mem_cons_self, rfl⟩
      · exact hrest hx

variable {g : OutputGrammar} {kind : LeafKind}

theorem write_prepend (h : g.ofLeafKind kind = ⟨[], []⟩) (text : Text) (shapes : List Shape) :
    write g (prepend kind text shapes) = text ++ write g shapes := by
  have hbare : ∀ content : Text,
      (Shape.render g (.leaf ⟨kind, content⟩)).text = content :=
    fun content => LeafShape.text_render_of_bare h (s := ⟨kind, content⟩) rfl
  have hcons : ∀ shapes : List Shape,
      write g (if text = [] then shapes else .leaf ⟨kind, text⟩ :: shapes) =
        text ++ write g shapes := by
    intro shapes
    by_cases htext : text = []
    · rw [if_pos htext, htext]
      rfl
    · rw [if_neg htext, write_cons, hbare]
  unfold prepend
  split
  · next s rest =>
    by_cases hs : s.kind = kind
    · rw [if_pos hs, write_cons, write_cons, hbare, List.append_assoc]
      congr 2
      exact (LeafShape.text_render_of_bare h hs).symm
    · rw [if_neg hs]
      exact hcons _
  · exact hcons _

/-- Merging does not change what is written. -/
theorem write_merge (h : g.ofLeafKind kind = ⟨[], []⟩) (shapes : List Shape) :
    write g (merge kind shapes) = write g shapes := by
  induction shapes with
  | nil => rfl
  | cons s rest ih =>
    cases s with
    | leaf s =>
      unfold merge
      by_cases hs : s.kind = kind
      · rw [if_pos hs, write_prepend h, write_cons, ih]
        congr 1
        exact (LeafShape.text_render_of_bare h hs).symm
      · rw [if_neg hs, write_cons, write_cons, ih]
    | container heading children =>
      unfold merge
      rw [write_cons, write_cons, ih]
      show (Delimiters.around _ (LeafShape.write g _)).text ++ _ = _
      rw [LeafShape.write_merge h]
      rfl

end Shape

end Worksheet
