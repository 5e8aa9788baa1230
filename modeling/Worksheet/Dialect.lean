import Worksheet.Grammar
import Worksheet.FilePath

/-! # Dialects

  A dialect is a surface syntax that worksheets are read from and written in. The extension of a
  file tells its type, and the type its dialect; files of Lean have two, of which one is chosen by
  a setting.
-/

namespace Worksheet

/-! ### File types -/

/-- What kind of file a worksheet is kept in. -/
inductive FileType where
  | coq
  | coqmd
  | lean
  | unknown
deriving DecidableEq

namespace FileType

def name : FileType → String
  | coq => "coq"
  | coqmd => "coqmd"
  | lean => "lean"
  | unknown => "unknown"

/-- The type for an extension, whose ASCII letters may be of either case. -/
def ofExtension (extension : Text) : FileType :=
  let lower := extension.asciiLower
  if lower = ['v'] then coq
  else if lower = ['m', 'v'] then coqmd
  else if lower = "lean".toList then lean
  else unknown

/-- The type of the file that a path leads to. -/
def ofPath (path : Text) : FileType := ((FilePath.extension? path).map ofExtension).getD unknown

def isKnown (t : FileType) : Bool := t ≠ unknown

end FileType

/-! ### Dialects -/

/-- The four surface syntaxes. -/
inductive Dialect where
  | coq
  | coqmd
  | lean
  | leanPure
deriving DecidableEq

/-- A name that no dialect has. -/
structure UnknownDialect where
  name : String

def UnknownDialect.message (e : UnknownDialect) : String := "unknown dialect '" ++ e.name ++ "'"

namespace Dialect

def all : List Dialect := [coq, coqmd, lean, leanPure]

def name : Dialect → String
  | coq => "coq"
  | coqmd => "coqmd"
  | lean => "lean"
  | leanPure => "pure-lean"

/-- The dialect of exactly that name. -/
def ofExactName? (name : String) : Option Dialect := all.find? (·.name == name)

/-- The dialect of that name, whose ASCII letters may be of either case. -/
def ofName (name : String) : Except UnknownDialect Dialect :=
  match ofExactName? (name.map Char.toLower) with
  | some d => .ok d
  | none => .error ⟨name⟩

/-- The grammar a dialect is written in. -/
def grammar : Dialect → OutputGrammar
  | coq => .coq
  | coqmd => .coqmd
  | lean => .lean
  | leanPure => .leanPure

/-- The dialect of a type of file. Files of Lean hold blocks unless plain source is
    preferred. -/
def ofFileType? : FileType → (preferPure : Bool) → Option Dialect
  | .coq, _ => some coq
  | .coqmd, _ => some coqmd
  | .lean, preferPure => some (if preferPure then leanPure else lean)
  | .unknown, _ => none

def fileType : Dialect → FileType
  | coq => .coq
  | coqmd => .coqmd
  | lean | leanPure => .lean

end Dialect

/-- The grammar that files of a type are written in. -/
def OutputGrammar.ofFileType? (t : FileType) : Option OutputGrammar :=
  (Dialect.ofFileType? t false).map Dialect.grammar

end Worksheet
