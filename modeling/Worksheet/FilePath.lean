import Worksheet.Text

/-! # File paths

  A path is its components between slashes. Empty components and those that are a single dot do not
  count. The extension of a file is what follows the last dot of its name, provided something
  precedes that dot.
-/

namespace Worksheet.FilePath

/-- The components of a path that count. -/
def components (path : Text) : List Text :=
  (path.splitOn '/').filter fun part => part ≠ [] ∧ part ≠ ['.']

/-- The absolute path of components from the root down. -/
def absolute : List Text → Text
  | [] => ['/']
  | parts => parts.flatMap ('/' :: ·)

/-- The name of the file: the last component, unless it leads to a parent. -/
def fileName? (path : Text) : Option Text :=
  (components path).getLast?.filter (· ≠ ['.', '.'])

/-- What follows the last dot of a name; none without a dot or with nothing before it. -/
def extensionOfName? (name : Text) : Option Text :=
  let fromEnd := name.reverse
  match fromEnd.dropWhile (· ≠ '.') with
  | _ :: _ :: _ => some (fromEnd.takeWhile (· ≠ '.')).reverse
  | _ => none

/-- The extension of the file that a path leads to. -/
def extension? (path : Text) : Option Text := (fileName? path).bind extensionOfName?

/-- The path of the file whose name goes on with a suffix. Slashes and single dots at the end of the
    path are dropped. -/
def withSuffix? (path suffix : Text) : Option Text :=
  match (path.splitOn '/').reverse.dropWhile fun part => part = [] ∨ part = ['.'] with
  | [] => none
  | name :: above =>
    if name = ['.', '.'] then none
    else some (List.intercalate ['/'] (above.reverse ++ [name ++ suffix]))

end Worksheet.FilePath
