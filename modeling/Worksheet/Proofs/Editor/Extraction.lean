import Worksheet.Editor.Node
import Worksheet.Proofs.Document.Ranges

/-! # What is extracted from a tree

  Extraction hands out identifiers as it goes. What an area is apart from its identifier does not
  depend on the counter, so a tree has one written form (`EditorNode.writeIn`). In a tree whose
  nodes carry identifiers nothing depends on the counter. The tree of a document gives back the
  areas of the document, without their ranges.
-/

namespace Worksheet

namespace EditorNode

/-! ### The shapes in a tree -/

/-- The shape of the area that a node stands for, if it stands for one. -/
def shape? (n : EditorNode) : Option Shape :=
  match n.container? with
  | some (heading, inside) => some (.container heading (inside.filterMap leaf?))
  | none => n.leaf?.map .leaf

/-- The shapes of the areas in a tree. -/
def shapes (root : EditorNode) : List Shape := root.children.filterMap shape?

/-- The areas in a tree, written in a grammar. -/
def writeIn (root : EditorNode) (g : OutputGrammar) : Text := Shape.write g root.shapes

theorem map_shape_leaves (nodes : List EditorNode) (ids : IdCounter) :
    (leaves nodes ids).1.map Leaf.shape = nodes.filterMap leaf? := by
  induction nodes generalizing ids with
  | nil => rfl
  | cons n rest ih =>
    rw [leaves, List.filterMap_cons]
    cases n.leaf? with
    | none => exact ih ids
    | some shape => exact congrArg (shape :: ·) (ih _)

theorem map_shape_areas (nodes : List EditorNode) (ids : IdCounter) :
    (areas nodes ids).1.map Area.shape = nodes.filterMap shape? := by
  induction nodes generalizing ids with
  | nil => rfl
  | cons n rest ih =>
    rw [areas, List.filterMap_cons, shape?]
    cases n.container? with
    | some c =>
      obtain ⟨heading, inside⟩ := c
      have hleaves := map_shape_leaves inside (ids.claim n.id).2
      show Shape.container heading ((leaves inside (ids.claim n.id).2).1.map Leaf.shape) ::
        (areas rest _).1.map Area.shape = _
      rw [hleaves, ih]
    | none =>
      cases n.leaf? with
      | none => exact ih ids
      | some shape => exact congrArg (Shape.leaf shape :: ·) (ih _)

/-- Whatever the counter, the areas in a tree are written in the same way. -/
theorem write_extract (root : EditorNode) (g : OutputGrammar) (ids : IdCounter) :
    Area.write g (root.extract ids).1 = root.writeIn g := by
  unfold Area.write writeIn shapes
  rw [← map_shape_areas root.children ids]
  rfl

/-! ### Trees with identifiers -/

/-- Those of the nodes that stand for something carry an identifier. -/
def AllNamed {α : Type} (what : EditorNode → Option α) (nodes : List EditorNode) : Prop :=
  ∀ n ∈ nodes, (what n).isSome → n.id.isSome

/-- Every node that stands for an area carries an identifier, also inside containers. -/
structure Named (root : EditorNode) : Prop where
  areas : AllNamed shape? root.children
  leaves : ∀ n ∈ root.children, ∀ heading inside, n.container? = some (heading, inside) →
    AllNamed leaf? inside

theorem leaves_eq_of_allNamed {nodes : List EditorNode} (h : AllNamed leaf? nodes)
    (ids others : IdCounter) : (leaves nodes ids).1 = (leaves nodes others).1 := by
  induction nodes generalizing ids others with
  | nil => rfl
  | cons n rest ih =>
    have hrest : AllNamed leaf? rest := fun m hm => h m (List.mem_cons_of_mem n hm)
    rw [leaves, leaves]
    cases hleaf : n.leaf? with
    | none => exact ih hrest ids others
    | some shape =>
      obtain ⟨id, hid⟩ := Option.isSome_iff_exists.1 (h n List.mem_cons_self (by rw [hleaf]; rfl))
      rw [hid]
      exact congrArg (_ :: ·) (ih hrest _ _)

theorem areas_eq_of_allNamed {nodes : List EditorNode} (hareas : AllNamed shape? nodes)
    (hleaves : ∀ n ∈ nodes, ∀ heading inside, n.container? = some (heading, inside) →
      AllNamed leaf? inside) (ids others : IdCounter) :
    (areas nodes ids).1 = (areas nodes others).1 := by
  induction nodes generalizing ids others with
  | nil => rfl
  | cons n rest ih =>
    have hrest := ih (fun m hm => hareas m (List.mem_cons_of_mem n hm))
      (fun m hm => hleaves m (List.mem_cons_of_mem n hm))
    have hnamed := hareas n List.mem_cons_self
    rw [areas, areas]
    cases hcontainer : n.container? with
    | some c =>
      obtain ⟨heading, inside⟩ := c
      obtain ⟨id, hid⟩ := Option.isSome_iff_exists.1 (hnamed (by rw [shape?, hcontainer]; rfl))
      have hinside := leaves_eq_of_allNamed
        (hleaves n List.mem_cons_self heading inside hcontainer) (ids.observe id)
        (others.observe id)
      rw [hid]
      show Area.container ⟨id, heading, (leaves inside (ids.observe id)).1, none⟩ :: _ =
        Area.container ⟨id, heading, (leaves inside (others.observe id)).1, none⟩ :: _
      rw [hinside]
      exact congrArg (_ :: ·) (hrest _ _)
    | none =>
      cases hleaf : n.leaf? with
      | none => exact hrest ids others
      | some shape =>
        obtain ⟨id, hid⟩ := Option.isSome_iff_exists.1
          (hnamed (by rw [shape?, hcontainer, hleaf]; rfl))
        rw [hid]
        exact congrArg (_ :: ·) (hrest _ _)

/-- Where the nodes carry identifiers, the counter plays no part in what is extracted. -/
theorem Named.extract_eq {root : EditorNode} (h : root.Named) (ids others : IdCounter) :
    (root.extract ids).1 = (root.extract others).1 :=
  areas_eq_of_allNamed h.areas h.leaves ids others

/-! ### What is extracted has no ranges -/

theorem clearRanges_leaves (nodes : List EditorNode) (ids : IdCounter) :
    (leaves nodes ids).1.map ({ · with range := none }) = (leaves nodes ids).1 := by
  induction nodes generalizing ids with
  | nil => rfl
  | cons n rest ih =>
    rw [leaves]
    cases n.leaf? with
    | none => exact ih ids
    | some shape => exact congrArg (_ :: ·) (ih _)

theorem clearRanges_areas (nodes : List EditorNode) (ids : IdCounter) :
    (areas nodes ids).1.map Area.clearRanges = (areas nodes ids).1 := by
  induction nodes generalizing ids with
  | nil => rfl
  | cons n rest ih =>
    rw [areas]
    cases n.container? with
    | some c =>
      obtain ⟨heading, inside⟩ := c
      show Area.container ⟨_, heading, (leaves inside (ids.claim n.id).2).1.map _, none⟩ ::
        (areas rest _).1.map Area.clearRanges = _
      rw [clearRanges_leaves, ih]
      rfl
    | none =>
      cases n.leaf? with
      | none => exact ih ids
      | some shape => exact congrArg (_ :: ·) (ih _)

theorem clearRanges_extract (root : EditorNode) (ids : IdCounter) :
    (root.extract ids).1.map Area.clearRanges = (root.extract ids).1 :=
  clearRanges_areas root.children ids

end EditorNode

/-! ### The tree of a document -/

theorem Leaf.allNamed_map_node (children : List Leaf) :
    EditorNode.AllNamed EditorNode.leaf? (children.map Leaf.node) := by
  intro n hn _
  obtain ⟨l, -, rfl⟩ := List.mem_map.1 hn
  rfl

theorem Leaf.container?_node (l : Leaf) : l.node.container? = none := by
  obtain ⟨id, kind, content, range⟩ := l
  cases kind <;> rfl

theorem Leaf.leaf?_node (l : Leaf) : l.node.leaf? = some l.shape := by
  obtain ⟨id, kind, content, range⟩ := l
  cases kind <;> rfl

theorem Container.container?_node (c : Container) :
    (Area.container c).node.container? = some (c.heading, c.children.map Leaf.node) := by
  obtain ⟨id, heading, children, range⟩ := c
  cases heading <;> rfl

theorem Area.id_node (a : Area) : a.node.id = some a.id := by
  cases a with
  | leaf l => rfl
  | container c =>
    obtain ⟨id, heading, children, range⟩ := c
    cases heading <;> rfl

theorem Leaf.leaves_map_node (children : List Leaf) (ids : IdCounter) :
    (EditorNode.leaves (children.map Leaf.node) ids).1 =
      children.map ({ · with range := none }) := by
  induction children generalizing ids with
  | nil => rfl
  | cons l rest ih =>
    rw [List.map_cons, EditorNode.leaves, l.leaf?_node]
    exact congrArg (_ :: ·) (ih _)

theorem Area.areas_map_node (areas : List Area) (ids : IdCounter) :
    (EditorNode.areas (areas.map Area.node) ids).1 = areas.map Area.clearRanges := by
  induction areas generalizing ids with
  | nil => rfl
  | cons a rest ih =>
    rw [List.map_cons, EditorNode.areas]
    cases a with
    | leaf l =>
      have hcontainer : (Area.leaf l).node.container? = none := l.container?_node
      have hleaf : (Area.leaf l).node.leaf? = some l.shape := l.leaf?_node
      rw [hcontainer, hleaf]
      exact congrArg (_ :: ·) (ih _)
    | container c =>
      rw [c.container?_node, Area.id_node]
      show Area.container ⟨c.id, c.heading,
        (EditorNode.leaves (c.children.map Leaf.node) _).1, none⟩ :: _ = _
      rw [Leaf.leaves_map_node]
      exact congrArg (_ :: ·) (ih _)

namespace Document

/-- The tree of a document holds the areas of the document. -/
theorem extract_editorTree (d : Document) (ids : IdCounter) :
    (d.editorTree.extract ids).1 = d.areas.map Area.clearRanges :=
  Area.areas_map_node d.areas ids

/-- Every area of a document has its identifier on its node. -/
theorem named_editorTree (d : Document) : d.editorTree.Named where
  areas := by
    intro n hn _
    obtain ⟨a, -, rfl⟩ := List.mem_map.1 hn
    rw [a.id_node]
    rfl
  leaves := by
    intro n hn heading inside hcontainer
    obtain ⟨a, -, rfl⟩ := List.mem_map.1 hn
    cases a with
    | leaf l => exact nomatch l.container?_node.symm.trans hcontainer
    | container c =>
      have hpair := Option.some.inj (c.container?_node.symm.trans hcontainer)
      have hinside : c.children.map Leaf.node = inside := congrArg Prod.snd hpair
      rw [← hinside]
      exact Leaf.allNamed_map_node c.children

theorem map_shape_clearRanges (areas : List Area) :
    (areas.map Area.clearRanges).map Area.shape = areas.map Area.shape := by
  rw [List.map_map]
  refine List.map_congr_left fun a _ => ?_
  cases a with
  | leaf l => rfl
  | container c =>
    show Shape.container c.heading ((c.children.map _).map Leaf.shape) = _
    rw [List.map_map]
    rfl

/-- The tree of a document is written as the document is. -/
theorem writeIn_editorTree (d : Document) (g : OutputGrammar) :
    d.editorTree.writeIn g = d.writeIn g := by
  rw [← EditorNode.write_extract d.editorTree g {}, extract_editorTree]
  unfold Area.write writeIn Area.write
  rw [map_shape_clearRanges]

end Document

end Worksheet
