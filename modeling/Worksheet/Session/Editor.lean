import Worksheet.Editor.Node
import Worksheet.Sync.Diagnostic

/-! # The editor

  The editor holds the tree that somebody edits, and the reports it was asked to show. Nodes are
  edited by their identifiers: of several nodes with one identifier the first is meant, where a node
  comes before its children. The root itself is never meant.
-/

namespace Worksheet

/-! ### Edits of a tree -/

mutual

/-- Changes the text of the first node of that identifier; `none` if there is none. -/
def EditorNode.editText? (id : AreaId) (f : Text → Text) : EditorNode → Option EditorNode
  | ⟨kind, own, text, source, status, children⟩ =>
    if own = some id ∧ kind ≠ .doc then some ⟨kind, own, f text, source, status, children⟩
    else
      (editTextIn? id f children).map fun children => ⟨kind, own, text, source, status, children⟩

/-- Changes the text of the first node of that identifier among several trees. -/
def EditorNode.editTextIn? (id : AreaId) (f : Text → Text) :
    List EditorNode → Option (List EditorNode)
  | [] => none
  | n :: rest =>
    match n.editText? id f with
    | some n => some (n :: rest)
    | none => (editTextIn? id f rest).map (n :: ·)

end

/-- Puts a node at an index among the children of the root; `none` if there are not so many. -/
def EditorNode.insertChild? (root : EditorNode) (index : Nat) (n : EditorNode) :
    Option EditorNode :=
  if index ≤ root.children.length then
    some { root with children := root.children.insertIdx index n }
  else none

/-! ### The editor -/

structure Editor where
  tree : EditorNode := { kind := .doc }
  /-- Every set of reports that was shown, the last one last. -/
  shown : List (List MappedDiagnostic) := []

namespace Editor

def load (e : Editor) (tree : EditorNode) : Editor := { e with tree }

/-- Changes the text of a node; whether there is such a node. -/
def editText (e : Editor) (id : AreaId) (f : Text → Text) : Editor × Bool :=
  match e.tree.editText? id f with
  | some tree => ({ e with tree }, true)
  | none => (e, false)

/-- Puts a node among the children of the root. -/
def insert? (e : Editor) (index : Nat) (n : EditorNode) : Option Editor :=
  (e.tree.insertChild? index n).map fun tree => { e with tree }

/-- Shows reports in place of those shown before. -/
def display (e : Editor) (reports : List MappedDiagnostic) : Editor :=
  { e with shown := e.shown ++ [reports] }

/-- The reports that are shown. -/
def current (e : Editor) : List MappedDiagnostic := e.shown.getLast?.getD []

end Editor

end Worksheet
