import Worksheet.Grammar

/-! # Written form

  The written form of a leaf is its content between the delimiters of its kind, that of a container
  is the written form of its children between the delimiters of its heading, and that of a list of
  areas is the concatenation. Nothing is escaped.
-/

namespace Worksheet

/-- A written area in its three parts. -/
structure Rendered where
  opening : Text
  body : Text
  closing : Text
deriving DecidableEq

def Rendered.text (r : Rendered) : Text := r.opening ++ r.body ++ r.closing

def Delimiters.around (d : Delimiters) (body : Text) : Rendered := ⟨d.opening, body, d.closing⟩

/-! ### Shapes -/

def LeafShape.render (g : OutputGrammar) (s : LeafShape) : Rendered :=
  (g.ofLeafKind s.kind).around s.content

/-- The written form of leaves, one after the other. -/
def LeafShape.write (g : OutputGrammar) (leaves : List LeafShape) : Text :=
  leaves.flatMap fun s => (s.render g).text

def Shape.render (g : OutputGrammar) : Shape → Rendered
  | .leaf s => s.render g
  | .container heading children => (g.ofHeading heading).around (LeafShape.write g children)

/-- The written form of shapes, one after the other. -/
def Shape.write (g : OutputGrammar) (shapes : List Shape) : Text :=
  shapes.flatMap fun s => (s.render g).text

/-! ### Areas -/

def Leaf.render (g : OutputGrammar) (l : Leaf) : Rendered := l.shape.render g

def Area.render (g : OutputGrammar) (a : Area) : Rendered := a.shape.render g

/-- The written form of areas, one after the other; identifiers and ranges play no part. -/
def Area.write (g : OutputGrammar) (areas : List Area) : Text := Shape.write g (areas.map Area.shape)

end Worksheet
