import Worksheet.Uri.Percent

/-! # Paths of URIs

  The path of a URI is its segments after slashes. A segment that is a dot stands for the directory
  at hand, and one that is two dots for the one above; a dot may be in percent form. Neither is left
  in a path. There is no way up from a drive, which is a letter with a colon, and a drive at the
  start of a path may be written with a bar in place of the colon.

  Tabs and line breaks in a path do not count, with one exception: one that follows a drive at the
  start of a path parts the drive from the rest of its segment.
-/

namespace Worksheet.UriPath

/-! ### Breaks -/

/-- Tabs and line breaks. -/
def isBreak (c : Char) : Bool := c == '\t' || c == '\n' || c == '\r'

/-- A text without the breaks in it. -/
def unbroken (s : Text) : Text := s.filter (! isBreak ·)

/-! ### Segments -/

structure Segment where
  text : Text
  /-- Whether the text stands as it is, even if it looks like dots or a drive. -/
  isFixed : Bool := false
deriving DecidableEq

/-- Whether a text stands for the directory itself. -/
def isHere (s : Text) : Bool := [".", "%2e"].contains (String.ofList s.asciiLower)

/-- Whether a text leads to the directory above. -/
def isParent (s : Text) : Bool :=
  ["..", ".%2e", "%2e.", "%2e%2e"].contains (String.ofList s.asciiLower)

/-- Whether a text is a letter and the mark of a drive. -/
def isDrive : Text → Bool
  | [letter, mark] => letter.isAlpha && (mark == ':' || mark == '|')
  | _ => false

/-- Whether a text holds the way up: a drive, alone or before a backslash. -/
def stays (s : Text) : Bool := isDrive (s.take 2) && (s.drop 2).head?.all (· == '\\')

/-- A text at the start of a path, where a drive has its colon. -/
def ofFirst (s : Text) : Text := if isDrive s then s.take 1 ++ [':'] else s

/-- A drive with its colon and what is parted from it by a break. -/
def partDrive? (s : Text) : Option (Text × Text) :=
  match unbroken (s.takeWhile (· ≠ ':')), s.dropWhile (· ≠ ':') with
  | [letter], _ :: rest =>
    if letter.isAlpha && rest.head?.any isBreak && unbroken rest ≠ [] then
      some ([letter, ':'], unbroken rest)
    else none
  | _, _ => none

/-! ### Dots -/

/-- The directories above the one at hand, from the innermost out, after a step up. -/
def up : List Segment → List Segment
  | [] => []
  | segment :: above => if stays segment.text then segment :: above else above

/-- The segments of a path without dots, of the texts between its slashes. `above` is what precedes,
    from the innermost out; a dot at the end leaves an empty segment. -/
def resolve (hasDrives : Bool) : (above : List Segment) → List Text → List Segment
  | above, [] => above.reverse
  | above, s :: rest =>
    let encode := Percent.encode Percent.path
    let ended (above : List Segment) : List Segment := if rest = [] then ⟨[], false⟩ :: above else above
    match if hasDrives && above.isEmpty then partDrive? s else none with
    | some (drive, s) => resolve hasDrives (⟨encode s, true⟩ :: ⟨drive, true⟩ :: above) rest
    | none =>
      let s := encode (unbroken s)
      if isParent s then resolve hasDrives (ended (up above)) rest
      else if isHere s then resolve hasDrives (ended above) rest
      else
        let s := if hasDrives && above.isEmpty then ofFirst s else s
        resolve hasDrives (⟨s, false⟩ :: above) rest

/-! ### Text -/

/-- Segments after slashes. -/
def display : List Segment → Text
  | [] => ['/']
  | segments => segments.flatMap fun segment => '/' :: segment.text

end Worksheet.UriPath
