import Worksheet.Json.Basic
import Worksheet.Document

/-! # Editor trees

  The editing surface holds a worksheet as a tree of nodes. Leaves carry their text, and a rendered
  text also what it was rendered from. An input holds its leaves in one wrapper node, a collapsible
  holds its title in a first wrapper and its leaves in a second. Areas are extracted from the tree
  at every synchronisation, and a document is loaded into the editor as a tree.
-/

namespace Worksheet

/-! ### Nodes -/

inductive NodeKind where
  | doc
  | text
  | renderedText
  | math
  | code
  | input
  | inputContent
  | collapsible
  | collapsibleTitle
  | collapsibleContent
  /-- A kind that means nothing here. -/
  | unknown
deriving DecidableEq

namespace NodeKind

def name : NodeKind → String
  | doc => "doc"
  | text => "text"
  | renderedText => "rendered_text"
  | math => "math"
  | code => "code"
  | input => "input"
  | inputContent => "input_content"
  | collapsible => "collapsible"
  | collapsibleTitle => "collapsible_title"
  | collapsibleContent => "collapsible_content"
  | unknown => "unknown"

def all : List NodeKind :=
  [doc, text, renderedText, math, code, input, inputContent, collapsible, collapsibleTitle,
    collapsibleContent]

/-- The kind of a name; every other name is that of an unknown kind. -/
def ofName (s : Text) : NodeKind := (all.find? (·.name.toList == s)).getD unknown

end NodeKind

/-- A node of an editor tree. -/
structure EditorNode where
  kind : NodeKind
  id : Option AreaId := none
  text : Text := []
  /-- What a rendered text was rendered from. -/
  source : Option Text := none
  status : Option Grade := none
  children : List EditorNode := []

/-! ### Loading a document -/

def LeafKind.nodeKind : LeafKind → NodeKind
  | text => .text
  | code => .code
  | math => .math

def Leaf.node (l : Leaf) : EditorNode :=
  { kind := l.kind.nodeKind, id := some l.id, text := l.content }

def Area.node : Area → EditorNode
  | .leaf l => l.node
  | .container c =>
    let leaves := c.children.map Leaf.node
    match c.heading with
    | .collapsible title =>
      { kind := .collapsible, id := some c.id,
        children := [{ kind := .collapsibleTitle, text := title },
          { kind := .collapsibleContent, children := leaves }] }
    | .input grade =>
      { kind := .input, id := some c.id, status := some grade,
        children := [{ kind := .inputContent, children := leaves }] }

/-- The tree an editor holds after loading a document. -/
def Document.editorTree (d : Document) : EditorNode :=
  { kind := .doc, children := d.areas.map Area.node }

/-! ### Extraction

    A node without an identifier is given a new one, and every identifier in use is observed. The
    counter is wound back in the end, so that extraction alone uses up no identifiers beyond those
    on the nodes. -/

/-- The identifier of a node, new if the node has none, and observed. -/
def IdCounter.claim (ids : IdCounter) : Option AreaId → AreaId × IdCounter
  | some id => (id, ids.observe id)
  | none => (ids.fresh.1, ids.fresh.2.observe ids.fresh.1)

namespace EditorNode

/-- What kind of leaf a node is, and its content. -/
def leaf? (n : EditorNode) : Option LeafShape :=
  match n.kind with
  | .text => some ⟨.text, n.text⟩
  | .renderedText => some ⟨.text, n.source.getD n.text⟩
  | .math => some ⟨.math, n.text⟩
  | .code => some ⟨.code, n.text⟩
  | _ => none

/-- The leaves among nodes; nodes of other kinds are skipped. -/
def leaves : List EditorNode → IdCounter → List Leaf × IdCounter
  | [], ids => ([], ids)
  | n :: rest, ids =>
    match n.leaf? with
    | none => leaves rest ids
    | some shape =>
      let (id, ids) := ids.claim n.id
      let (others, ids) := leaves rest ids
      (⟨id, shape.kind, shape.content, none⟩ :: others, ids)

/-- The children of the child at an index. -/
def within (n : EditorNode) (index : Nat) : List EditorNode :=
  ((n.children[index]?).map EditorNode.children).getD []

/-- The heading of a container and the nodes inside it. -/
def container? (n : EditorNode) : Option (Heading × List EditorNode) :=
  match n.kind with
  | .input => some (.input (n.status.getD .unattempted), n.within 0)
  | .collapsible => some (.collapsible ((n.children.head?.map EditorNode.text).getD []), n.within 1)
  | _ => none

/-- The areas among nodes; nodes of other kinds are skipped. -/
def areas : List EditorNode → IdCounter → List Area × IdCounter
  | [], ids => ([], ids)
  | n :: rest, ids =>
    match n.container? with
    | some (heading, inside) =>
      let (id, ids) := ids.claim n.id
      let (children, ids) := leaves inside ids
      let (others, ids) := areas rest ids
      (.container ⟨id, heading, children, none⟩ :: others, ids)
    | none =>
      match n.leaf? with
      | none => areas rest ids
      | some shape =>
        let (id, ids) := ids.claim n.id
        let (others, ids) := areas rest ids
        (.leaf ⟨id, shape.kind, shape.content, none⟩ :: others, ids)

/-- The areas of an editor tree. -/
def extract (root : EditorNode) (ids : IdCounter) : List Area × IdCounter :=
  let (found, after) := areas root.children ids
  (found, after.restore ids.checkpoint)

/-- The document of an editor tree; its ranges are not found yet. -/
def extractDocument (root : EditorNode) (uri : Text) (grammar : OutputGrammar) (ids : IdCounter) :
    Document × IdCounter :=
  let (areas, ids) := root.extract ids
  ({ uri, areas, grammar }, ids)

end EditorNode

end Worksheet
