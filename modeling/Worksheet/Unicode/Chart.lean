import Worksheet.Digits

/-! # Charts of characters

  A property of characters is written down as a chart: code points in base sixteen, in words between
  blanks. A chart of images says what characters are replaced by, and runs of neighbours need few
  words:

  * `c0=e0` says that one character has an image, and `bc=31.2044.34` that its image is a text;
  * a word without a place is the image of the next character, so `b2=32 33` is two characters;
  * `41-5a=61` says that neighbours have images that are neighbours too;
  * `100~12e=101` says so of every other character.

  A chart of members has single characters and runs, as in `300-314 31b`.
-/

namespace Worksheet.Unicode

/-- Characters and their images. -/
abbrev Chart := List (Char × Text)

namespace Chart

/-- The words of a chart. -/
def words (chart : String) : List Text :=
  (chart.toList.splitOnP fun c => c == ' ' || c == '\n').filter (· ≠ [])

/-- A code point in base sixteen. -/
def point (s : Text) : Nat := (Digits.number? 16 s).getD 0

/-- Every `step`-th character from one to another; their images are as far apart as they are. -/
def run (step : Nat) (first last image : Text) : Chart :=
  (List.range ((point last - point first) / step + 1)).map fun k =>
    (Char.ofNat (point first + k * step), [Char.ofNat (point image + k * step)])

/-- The characters of a word and their images; `next` follows the characters of the word before. -/
def ofWord (next : Nat) (word : Text) : Chart :=
  let image (s : Text) : Text := (s.splitOn '.').map fun c => Char.ofNat (point c)
  match Text.cut? ['='] word with
  | none => [(Char.ofNat next, image word)]
  | some (place, target) =>
    match Text.cut? ['-'] place, Text.cut? ['~'] place with
    | some (first, last), _ => run 1 first last target
    | none, some (first, last) => run 2 first last target
    | none, none => [(Char.ofNat (point place), image target)]

/-- The characters of words and their images, where `next` follows what precedes them. -/
def ofWords : (next : Nat) → List Text → Chart
  | _, [] => []
  | next, word :: rest =>
    let entries := ofWord next word
    entries ++ ofWords ((entries.getLast?.map fun (c, _) => c.toNat + 1).getD next) rest

/-- Reads a chart of images. -/
def ofString (chart : String) : Chart := ofWords 0 (words chart)

/-- The image of a character, if it has one. -/
def image? (chart : Chart) (c : Char) : Option Text := List.lookup c chart

/-- The character that has an image. -/
def source? (chart : Chart) (image : Text) : Option Char :=
  (chart.find? fun (_, text) => text == image).map (·.1)

end Chart

/-- Runs of characters, each by its first and its last. -/
abbrev Runs := List (Nat × Nat)

namespace Runs

/-- Reads a chart of members. -/
def ofString (chart : String) : Runs :=
  (Chart.words chart).map fun word =>
    match Text.cut? ['-'] word with
    | some (first, last) => (Chart.point first, Chart.point last)
    | none => (Chart.point word, Chart.point word)

/-- Whether a character is a member. -/
def contains (runs : Runs) (c : Char) : Bool :=
  runs.any fun (first, last) => first ≤ c.toNat && c.toNat ≤ last

end Runs

end Worksheet.Unicode
