import Worksheet.Command.Files
import Worksheet.Editor.Snapshot
import Worksheet.Format
import Worksheet.Json.Printer
import Worksheet.Settings.Load
import Worksheet.Uri.File

/-! # Commands

  A command reads a file and answers with the text to print. Documents are read in a named format or
  in that of the file's extension; whether there is such a format is looked at before the file is.
-/

namespace Worksheet

/-! ### Errors -/

inductive CommandError where
  | unreadable (path : Text) (cause : ReadError)
  | format (cause : FormatError)
  | settings (cause : SettingsError)
  /-- A snapshot is not well formed. -/
  | snapshot
  | dialect (cause : UnknownDialect)

/-- What is wrong with settings. -/
def SettingsError.message : SettingsError → String
  | badKey key => "the key '" ++ String.ofList key ++ "' is not a path"
  | missingFile => "a configuration file is missing"
  | malformedFile => "a configuration file is malformed"
  | badIndex => "an index has no place in its list"
  | unfit => "a value is missing or does not fit"

def CommandError.message : CommandError → String
  | unreadable path cause => "Failed to read " ++ String.ofList path ++ ": " ++ cause.message
  | format cause => cause.message
  | settings cause => "Invalid configuration: " ++ cause.message
  | snapshot => "Invalid snapshot: the text is not an editor tree"
  | dialect cause => cause.message

namespace Command

variable {m : Type → Type} [Monad m]

/-- What a command does: it reaches files, and may fail. -/
abbrev Action (m : Type → Type) := ExceptT CommandError m

/-! ### Reading -/

/-- The uri of a path; the path itself if it has none. -/
def uri (files : FileAccess m) (path : Text) : m Text := do
  let place ← files.locate path
  return (Uri.ofPath? place).getD place

def readText (files : FileAccess m) (path : Text) : Action m Text := do
  match ← files.readText path with
  | .ok s => return s
  | .error e => throw (.unreadable path e)

/-- A result of the catalogue, as part of a command. -/
def lift {α : Type} : Except FormatError α → Action m α
  | .ok a => return a
  | .error e => throw (.format e)

/-- Reads a document, in the format named `source` if there is one. -/
def readDocument (files : FileAccess m) (settings : Settings) (path : Text)
    (source : Option String) : Action m Document := do
  let catalogue := Catalogue.standard
  let format ← lift <| match source with
    | some name => catalogue.get name
    | none => catalogue.forPath path settings.output.preferPure
  let text ← readText files path
  let place ← (uri files path : m Text)
  lift (catalogue.parse format.name place text {}).1

/-! ### Tables -/

/-- One line of the table of ranges. -/
def rangeLine (id kind start stop bytes : Text) : Text :=
  id.padLeft 4 ++ ' ' :: ' ' :: kind.padRight 12 ++ ' ' :: start.padLeft 9 ++ ' ' :: ' ' ::
    stop.padLeft 9 ++ ' ' :: ' ' :: bytes ++ ['\n']

/-- The areas that have a range. -/
def ranged (d : Document) : List (Entry × Range) :=
  d.entries.filterMap fun e => e.range.map (e, ·)

/-- The ranges of a document as a table. -/
def rangeTable (d : Document) : Text :=
  rangeLine "id".toList "type".toList "start".toList "end".toList "bytes".toList ++
    (ranged d).flatMap fun (e, r) =>
      rangeLine (decimal e.id.val) e.kind.name.toList r.start.display r.stop.display
        (decimal r.span.start ++ '.' :: '.' :: decimal r.span.stop)

/-- A position as JSON. -/
def positionJson (p : Position) : Json :=
  .object [("line", .nat p.line), ("character", .nat p.character)]

/-- The ranges of a document as JSON. -/
def rangeJson (d : Document) : Json :=
  .arr ((ranged d).map fun (e, r) => .object [("id", .nat e.id.val),
    ("type", .ofText e.kind.name.toList), ("start", positionJson r.start),
    ("end", positionJson r.stop), ("span", .arr [.nat r.span.start, .nat r.span.stop])])

/-! ### Commands -/

/-- Writes a document in another format, that of the settings if none is named. -/
def convert (files : FileAccess m) (settings : Settings) (path : Text)
    (source target : Option String) : Action m Text := do
  let document ← readDocument files settings path source
  lift (Catalogue.standard.serialize (target.getD settings.output.defaultFormat.name) document)

/-- Shows a document in a format, where the outline may have ranges in front. -/
def inspect (files : FileAccess m) (settings : Settings) (path : Text) (source : Option String)
    (format : String) (showRanges : Bool) : Action m Text := do
  let document ← readDocument files settings path source
  if format = Format.outline.name then return document.outline showRanges
  else lift (Catalogue.standard.serialize format document)

/-- Shows the range of every area. -/
def ranges (files : FileAccess m) (settings : Settings) (path : Text) (source : Option String)
    (json : Bool) : Action m Text := do
  let document ← readDocument files settings path source
  return if json then (rangeJson document).pretty 0 ++ ['\n'] else rangeTable document

/-- Writes the document of a snapshot in a dialect, that of the settings if none is named. -/
def extract (files : FileAccess m) (settings : Settings) (path : Text) (dialect : Option String) :
    Action m Text := do
  let dialect ← match dialect with
    | none => pure settings.output.defaultFormat
    | some name =>
      match Dialect.ofName name with
      | .ok d => pure d
      | .error e => throw (.dialect e)
  match Snapshot.parse? (← readText files path) with
  | none => throw .snapshot
  | some root =>
    let place ← (uri files path : m Text)
    return (root.extractDocument place dialect.grammar {}).1.write

/-- What a format can do: read, write, both or nothing. -/
def capabilities (f : Format) : Text :=
  match f.parses, f.serializes with
  | true, true => ['r', 'w']
  | true, false => ['r']
  | false, true => ['w']
  | false, false => ['-']

/-- The formats with what they can do and what they are. -/
def formats : Text :=
  Catalogue.standard.formats.flatMap fun f =>
    Text.padRight 10 f.name.toList ++ ' ' :: Text.padRight 6 (capabilities f) ++ ' ' ::
      f.description.toList ++ ['\n']

end Command

end Worksheet
