import Worksheet.Block
import Worksheet.Dialect
import Worksheet.Document
import Worksheet.Region.Segment

/-! # Reading

  A text is read in a dialect as a list of shapes, which are then numbered in document order. The
  identifiers of a document are so decided by its shapes alone.
-/

namespace Worksheet

namespace Dialect

/-- Reads a text as shapes. -/
def read : Dialect → Text → List Shape
  | coq, s => RegionGrammar.coq.read s
  | coqmd, s => RegionGrammar.coqmd.read s
  | lean, s => Block.read s
  | leanPure, s => RegionGrammar.leanPure.read s

/-- Reads a text as areas. -/
def parse (d : Dialect) (s : Text) (ids : IdCounter) : List Area × IdCounter :=
  Area.number (d.read s) ids

/-- Reads a text as a document in the dialect's grammar; its ranges are not found yet. -/
def parseDocument (d : Dialect) (uri s : Text) (ids : IdCounter) : Document × IdCounter :=
  let (areas, ids) := d.parse s ids
  ({ uri, areas, grammar := d.grammar }, ids)

end Dialect

/-- Reads a file of a type, if there is a dialect for it. -/
def FileType.parseDocument? (t : FileType) (uri s : Text) (ids : IdCounter) :
    Option (Document × IdCounter) :=
  (Dialect.ofFileType? t false).map fun d => d.parseDocument uri s ids

end Worksheet
