import Worksheet.Outline
import Worksheet.Reading

/-! # Formats

  A format reads documents, writes them, or does both. There is one for each dialect, and the
  outline, which can only be written. A catalogue holds formats by name; the format for a file is
  that of its dialect.
-/

namespace Worksheet

/-! ### Errors -/

/-- What a format may be asked to do. -/
inductive Capability where
  | parsing
  | serialization
deriving DecidableEq

def Capability.name : Capability → String
  | parsing => "parsing"
  | serialization => "serialization"

inductive FormatError where
  | notFound (name : String)
  | notSupported (name : String) (capability : Capability)
  | unknownExtension (extension : Text)
  | bounds (cause : BoundsError)
deriving DecidableEq

/-- The text of an error where ranges cannot be found. -/
def BoundsError.report (e : BoundsError) : String :=
  "Area ranges could not be mapped: " ++ e.message

def FormatError.message : FormatError → String
  | notFound name => "Format '" ++ name ++ "' not found"
  | notSupported name capability =>
    "Format '" ++ name ++ "' does not support " ++ capability.name
  | unknownExtension extension =>
    "No format handles files with extension '" ++ String.ofList extension ++ "'"
  | bounds cause => cause.report

/-! ### Formats -/

/-- A way to read and write documents. A format that does not say how does not do it. -/
structure Format where
  name : String
  description : String := ""
  /-- Extensions of the files it is for, without the dot. -/
  extensions : List String := []
  parses : Bool := false
  serializes : Bool := false
  /-- Reads the text of a file, with the uri of the file and a counter for identifiers. -/
  parse : Text → Text → IdCounter → Except FormatError Document × IdCounter :=
    fun _ _ ids => (.error (.notSupported name .parsing), ids)
  serialize : Document → Except FormatError Text :=
    fun _ => .error (.notSupported name .serialization)

namespace Format

def dialectDescription : Dialect → String
  | .coq => "Coq source with prose in coqdoc comments"
  | .coqmd => "Markdown with fenced Coq blocks"
  | .lean => "Lean block syntax (:::code, :::text, ...)"
  | .leanPure => "Lean source with prose in module doc comments"

def dialectExtensions : Dialect → List String
  | .coq => ["v"]
  | .coqmd => ["mv"]
  | .lean | .leanPure => ["lean"]

/-- The format of a dialect. A document that is read has its ranges; one that is written is written
    in the dialect's grammar, whatever its own is. -/
def ofDialect (d : Dialect) : Format where
  name := d.name
  description := dialectDescription d
  extensions := dialectExtensions d
  parses := true
  serializes := true
  parse := fun uri source ids =>
    let (document, ids) := d.parseDocument uri source ids
    match document.updateBounds with
    | (document, none) => (.ok document, ids)
    | (_, some e) => (.error (.bounds e), ids)
  serialize := fun document => .ok (document.writeIn d.grammar)

/-- The outline as a format. -/
def outline : Format where
  name := "treeviz"
  description := "Visual tree representation with indentation and Unicode icons"
  serializes := true
  serialize := fun document => .ok (document.outline false)

end Format

/-! ### Catalogues -/

/-- Formats by name, in the order of their names. -/
structure Catalogue where
  formats : List Format

namespace Catalogue

def empty : Catalogue := ⟨[]⟩

/-- Puts a format among others that are in order, in place of one that has its name. -/
def insert (f : Format) : List Format → List Format
  | [] => [f]
  | g :: rest =>
    if f.name = g.name then f :: rest
    else if f.name < g.name then f :: g :: rest
    else g :: insert f rest

/-- Adds a format, in place of one that has its name. -/
def register (c : Catalogue) (f : Format) : Catalogue := ⟨insert f c.formats⟩

/-- The dialects and the outline. -/
def standard : Catalogue :=
  (Dialect.all.foldl (fun c d => c.register (.ofDialect d)) empty).register .outline

def names (c : Catalogue) : List String := c.formats.map Format.name

def has (c : Catalogue) (name : String) : Bool := c.names.contains name

/-- The format of a name. -/
def get (c : Catalogue) (name : String) : Except FormatError Format :=
  match c.formats.find? (·.name == name) with
  | some f => .ok f
  | none => .error (.notFound name)

/-- The format for a file. -/
def forPath (c : Catalogue) (path : Text) (preferPure : Bool) : Except FormatError Format :=
  let extension := (FilePath.extension? path).getD []
  match Dialect.ofFileType? (.ofExtension extension) preferPure with
  | some d => c.get d.name
  | none => .error (.unknownExtension extension)

/-- Reads a text in the format of a name. -/
def parse (c : Catalogue) (format : String) (uri source : Text) (ids : IdCounter) :
    Except FormatError Document × IdCounter :=
  match c.get format with
  | .error e => (.error e, ids)
  | .ok f =>
    if f.parses then f.parse uri source ids else (.error (.notSupported format .parsing), ids)

/-- Writes a document in the format of a name. -/
def serialize (c : Catalogue) (format : String) (document : Document) :
    Except FormatError Text := do
  let f ← c.get format
  if f.serializes then f.serialize document else .error (.notSupported format .serialization)

end Catalogue

end Worksheet
