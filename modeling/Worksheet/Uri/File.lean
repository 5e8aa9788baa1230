import Worksheet.FilePath
import Worksheet.Uri.Percent

/-! # URIs of files

  The URI of a file spells out the components of its absolute path, each after a slash and in
  percent form where it has to be. It is in normal form apart from components that lead up, which
  are kept.
-/

namespace Worksheet.Uri

/-- The URI of an absolute path; a relative one has none. -/
def ofPath? (path : Text) : Option Text :=
  if path.head? = some '/' then
    some ("file://".toList ++
      FilePath.absolute ((FilePath.components path).map (Percent.encode Percent.component)))
  else none

end Worksheet.Uri
