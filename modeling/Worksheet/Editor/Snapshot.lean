import Worksheet.Editor.Node
import Worksheet.Json.Reader

/-! # Snapshots

  A snapshot is an editor tree as JSON. Fields that would hold nothing are left out and read as
  nothing when they are missing. Reading accepts a node as an object, whose unknown fields do not
  count, or as an array of its fields in order. Arrays and objects that take part may nest
  `Snapshot.depth` levels deep; what an unknown field holds is not looked at.
-/

namespace Worksheet

namespace EditorNode

/-! ### Writing -/

mutual

/-- A node as JSON. -/
def toJson : EditorNode → Json
  | ⟨kind, id, text, source, status, children⟩ =>
    .object (
      [("kind", .ofText kind.name.toList)] ++
      (id.toList.map fun id => ("id", .nat id.val)) ++
      (if text = [] then [] else [("text", .ofText text)]) ++
      (source.toList.map fun text => ("original", .ofText text)) ++
      (status.toList.map fun grade => ("status", .ofText grade.name.toList)) ++
      (if children.isEmpty then [] else [("children", .arr (listToJson children))]))

/-- Nodes as JSON. -/
def listToJson : List EditorNode → List Json
  | [] => []
  | n :: rest => n.toJson :: listToJson rest

end

end EditorNode

namespace Snapshot

/-- How many levels of arrays and objects a snapshot may have. -/
def depth : Nat := 127

/-! ### Fields -/

/-- The text of a string. -/
def text? : Json → Option Text
  | .str s => s
  | _ => none

/-- A field that may be null, where `read` reads what else it holds. -/
def optional? {α : Type} (read : Json → Option α) : Json → Option (Option α)
  | .null => some none
  | v => (read v).map some

def id? : Json → Option AreaId
  | .nat n => AreaId.ofNat? n
  | _ => none

/-- A name that stands for a choice: a string, or an object whose only field has that name and holds
    null, which takes a level. -/
def choice? (levels : Nat) : Json → Option Text
  | .str s => s
  | .obj [(key, .null)] => if levels = 0 then none else key
  | _ => none

def kind? (levels : Nat) (v : Json) : Option NodeKind := (choice? levels v).map NodeKind.ofName

def status? (levels : Nat) (v : Json) : Option Grade :=
  (choice? levels v).bind fun name => Grade.ofName? (String.ofList name)

/-- The values of the known fields of a node, by the order of the fields. -/
structure Fields where
  kind : Option Json := none
  id : Option Json := none
  text : Option Json := none
  source : Option Json := none
  status : Option Json := none
  children : Option Json := none

/-- Sets a field that has no value yet; `none` if it has one. -/
def setOnce? (old : Option Json) (v : Json) : Option (Option Json) :=
  match old with
  | none => some (some v)
  | some _ => none

/-- Sorts the fields of an object. A known field must not be repeated, an unknown one counts for
    nothing, and every key must denote a text. -/
def Fields.ofObject? : List (Option Text × Json) → Fields → Option Fields
  | [], f => some f
  | (key, v) :: rest, f => do
    let key := String.ofList (← key)
    if key = "kind" then ofObject? rest { f with kind := ← setOnce? f.kind v }
    else if key = "id" then ofObject? rest { f with id := ← setOnce? f.id v }
    else if key = "text" then ofObject? rest { f with text := ← setOnce? f.text v }
    else if key = "original" then ofObject? rest { f with source := ← setOnce? f.source v }
    else if key = "status" then ofObject? rest { f with status := ← setOnce? f.status v }
    else if key = "children" then ofObject? rest { f with children := ← setOnce? f.children v }
    else ofObject? rest f

/-- The fields of a node in array form; those at the end may be missing. -/
def Fields.ofArray? (items : List Json) : Option Fields :=
  if items.length ≤ 6 then
    some ⟨items[0]?, items[1]?, items[2]?, items[3]?, items[4]?, items[5]?⟩
  else none

/-- The fields of a node. -/
def Fields.of? : Json → Option Fields
  | .obj fields => ofObject? fields {}
  | .arr items => ofArray? items
  | _ => none

/-- A field that may be missing. -/
def defaulted? {α : Type} (default : α) (read : Json → Option α) : Option Json → Option α
  | none => some default
  | some v => read v

/-! ### Nodes -/

mutual

/-- Reads a node that has so many levels for its arrays and objects. -/
def node? : (levels : Nat) → Json → Option EditorNode
  | 0, _ => none
  | levels + 1, v => do
    let f ← Fields.of? v
    let kind ← f.kind.bind (kind? levels)
    let id ← defaulted? none (optional? id?) f.id
    let text ← defaulted? [] text? f.text
    let source ← defaulted? none (optional? text?) f.source
    let status ← defaulted? none (optional? (status? levels)) f.status
    let children ← children? levels f.children
    return { kind, id, text, source, status, children }

/-- Reads the children of a node, which may be missing; an array takes a level. -/
def children? : (levels : Nat) → Option Json → Option (List EditorNode)
  | _, none => some []
  | levels + 1, some (.arr items) => items.mapM (node? levels)
  | _, some _ => none

end

/-- Reads the JSON value of a snapshot. -/
def ofJson? (v : Json) : Option EditorNode := node? depth v

/-- Reads the text of a snapshot. -/
def parse? (s : Text) : Option EditorNode := (Json.parse? s).bind ofJson?

end Snapshot

end Worksheet
