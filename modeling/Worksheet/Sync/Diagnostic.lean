import Worksheet.Document

/-! # Diagnostics

  The server reports on ranges of the written text; the editor shows reports inside areas. A report
  belongs to the leaf that holds the character at its start, and both its ends become byte offsets
  into the content of that leaf. An end outside the leaf means the end of its content. A report
  that starts on no leaf is dropped.
-/

namespace Worksheet

/-- What a position becomes where lines and columns have 32 bits. -/
def Position.wire (p : Position) : Position :=
  ⟨p.line % Nat.pow 2 32, p.character % Nat.pow 2 32⟩

/-- A report of the server on a range of the written text. -/
structure Diagnostic where
  start : Position
  stop : Position
  message : Text
deriving DecidableEq

/-- A report on a range of the content of an area, in bytes. -/
structure MappedDiagnostic where
  diagnostic : Diagnostic
  area : AreaId
  start : Nat
  stop : Nat
deriving DecidableEq

namespace Document

/-- The place of a report in the area at its start. -/
def mapDiagnostic? (d : Document) (diagnostic : Diagnostic) : Option MappedDiagnostic := do
  let e ← d.areaStartingAt? diagnostic.start
  let start ← d.offsetOf? e.id diagnostic.start
  let stop := (d.offsetOf? e.id diagnostic.stop).getD e.content.utf8Length
  return ⟨diagnostic, e.id, start, max stop start⟩

/-- The reports that have a place, in their order. -/
def mapDiagnostics (d : Document) (diagnostics : List Diagnostic) : List MappedDiagnostic :=
  diagnostics.filterMap d.mapDiagnostic?

end Document

end Worksheet
