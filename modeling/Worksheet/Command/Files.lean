import Worksheet.FilePath
import Worksheet.Utf8

/-! # Files of a command

  A command reads files and asks where they lie. How it does that is left open: a program reads the
  disk, and a tree of files in memory gives answers that depend on nothing else.
-/

namespace Worksheet

/-! ### Access -/

/-- Why a file cannot be read. -/
inductive ReadError where
  | notFound
  | notDirectory
  | isDirectory
  | nameTooLong
  | notText
  /-- No file can have the name. -/
  | notName
  | other (reason : String)
deriving DecidableEq

def ReadError.message : ReadError → String
  | notFound => "No such file or directory (os error 2)"
  | notDirectory => "Not a directory (os error 20)"
  | isDirectory => "Is a directory (os error 21)"
  | nameTooLong => "File name too long (os error 36)"
  | notText => "stream did not contain valid UTF-8"
  | notName => "file name contained an unexpected NUL byte"
  | other reason => reason

/-- How files are reached. -/
structure FileAccess (m : Type → Type) where
  /-- The bytes of a file. -/
  read : Text → m (Except ReadError (List UInt8))
  /-- The place of a file as an absolute path, without detours if the file is there. -/
  locate : Text → m Text

/-- The text of a file, which has to be well-formed. -/
def FileAccess.readText {m : Type → Type} [Monad m] (files : FileAccess m) (path : Text) :
    m (Except ReadError Text) := do
  match ← files.read path with
  | .error e => return .error e
  | .ok bytes => return (Utf8.decode? bytes).elim (.error .notText) .ok

/-! ### Files in memory -/

/-- Files by their paths, which lead from the working directory down. -/
structure FileTree where
  /-- The working directory, as an absolute path. -/
  directory : Text
  files : List (Text × List UInt8)

namespace FileTree

/-- The components of the absolute path of a file. -/
def placeOf (t : FileTree) (name : Text) : List Text :=
  FilePath.components t.directory ++ FilePath.components name

/-- The bytes of the file at a place. -/
def bytes? (t : FileTree) (place : List Text) : Option (List UInt8) :=
  (t.files.find? fun (name, _) => t.placeOf name == place).map (·.2)

/-- Whether a place is a directory: the working directory, one that a file lies in, or one that such
    a directory lies in. -/
def isDirectory (t : FileTree) (place : List Text) : Bool :=
  place.isPrefixOf (FilePath.components t.directory) ||
    t.files.any fun (name, _) => place.isPrefixOf (t.placeOf name) && t.placeOf name != place

/-- How many bytes a component of a path has at most. -/
def maxComponent : Nat := 255

/-- How many bytes a path has at most. -/
def maxPath : Nat := 4095

/-- Follows the components of a path from a place on. -/
def follow (t : FileTree) : (place : List Text) → List Text → Except ReadError (List Text)
  | place, [] =>
    if (t.bytes? place).isSome || t.isDirectory place then .ok place else .error .notFound
  | place, part :: rest =>
    if t.isDirectory place then
      if maxComponent < part.utf8Length then .error .nameTooLong
      else t.follow (if part = ['.', '.'] then place.dropLast else place ++ [part]) rest
    else if (t.bytes? place).isSome then .error .notDirectory
    else .error .notFound

/-- Whether a path ends in a way that only a directory may. -/
def endsInDirectory (path : Text) : Bool :=
  match path.reverse with
  | '/' :: _ => true
  | '.' :: '/' :: _ => true
  | _ => false

/-- Finds what a path leads to. -/
def find (t : FileTree) (path : Text) : Except ReadError (List Text) := do
  if path.contains '\x00' then throw .notName
  if path = [] then throw .notFound
  if maxPath < path.utf8Length then throw .nameTooLong
  let start := if path.head? = some '/' then [] else FilePath.components t.directory
  let place ← t.follow start (FilePath.components path)
  if endsInDirectory path && !t.isDirectory place then throw .notDirectory
  return place

def read (t : FileTree) (path : Text) : Except ReadError (List UInt8) := do
  let place ← t.find path
  match t.bytes? place with
  | some bytes => return bytes
  | none => throw .isDirectory

def locate (t : FileTree) (path : Text) : Text :=
  match t.find path with
  | .ok place => FilePath.absolute place
  | .error _ => if path.head? = some '/' then path else t.directory ++ '/' :: path

/-- Access to the files of a tree. -/
def access (t : FileTree) : FileAccess Id := ⟨t.read, t.locate⟩

end FileTree

end Worksheet
