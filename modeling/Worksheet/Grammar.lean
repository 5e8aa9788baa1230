import Worksheet.Area

/-! # Output grammars

  An output grammar says how each kind of area is delimited when a document is written. It is
  data: a pair of texts for every kind, and a further pair for collapsibles with a title, whose
  opening carries a placeholder for it.

  | grammar   | text           | code           | mathematics       | containers                   |
  |-----------|----------------|----------------|-------------------|------------------------------|
  | coq       | a doc comment  | as it is       | `$$` in a comment | comments                     |
  | coqmd     | as it is       | fenced blocks  | between `$$`      | tags                         |
  | lean      | `:::` block    | `:::` block    | `:::` block       | `:::` blocks                 |
  | pure-lean | a doc comment  | as it is       | `$$` in a comment | comments                     |
-/

namespace Worksheet

/-- What is written around an area. -/
structure Delimiters where
  opening : Text
  closing : Text
deriving DecidableEq

/-- Delimiters for every kind of area in one surface syntax. -/
structure OutputGrammar where
  text : Delimiters
  code : Delimiters
  math : Delimiters
  /-- Around a collapsible without a title. -/
  collapsible : Delimiters
  /-- Around a collapsible with a title; the opening holds the placeholder `TITLE`. -/
  titled : Delimiters
  input : Delimiters
deriving DecidableEq

/-- A text with every occurrence of the placeholder, from the left, replaced by a title. -/
def substituteTitle (title : Text) : Text → Text
  | 'T' :: 'I' :: 'T' :: 'L' :: 'E' :: s => title ++ substituteTitle title s
  | c :: s => c :: substituteTitle title s
  | [] => []

namespace OutputGrammar

/-! ### The canonical grammars -/

def coq : OutputGrammar where
  text := ⟨"(** ".toList, " *)".toList⟩
  code := ⟨[], []⟩
  math := ⟨"(** $$".toList, "$$ *)".toList⟩
  collapsible := ⟨"(* begin details *)".toList, "(* end details *)".toList⟩
  titled := ⟨"(* begin details : TITLE *)".toList, "(* end details *)".toList⟩
  input := ⟨"(* begin input *)".toList, "(* end input *)".toList⟩

def coqmd : OutputGrammar where
  text := ⟨[], []⟩
  code := ⟨"\n```coq\n".toList, "\n```\n".toList⟩
  math := ⟨"$$".toList, "$$".toList⟩
  collapsible := ⟨"<hint>".toList, "</hint>".toList⟩
  titled := ⟨"<hint title=\"TITLE\">".toList, "</hint>".toList⟩
  input := ⟨"<input-area>".toList, "</input-area>".toList⟩

def lean : OutputGrammar where
  text := ⟨":::text\n".toList, "\n:::\n".toList⟩
  code := ⟨":::code\n".toList, "\n:::\n".toList⟩
  math := ⟨":::math\n".toList, "\n:::\n".toList⟩
  collapsible := ⟨":::collapsible\n".toList, ":::\n".toList⟩
  titled := ⟨":::collapsible\n# TITLE\n".toList, ":::\n".toList⟩
  input := ⟨":::input\n".toList, ":::\n".toList⟩

def leanPure : OutputGrammar where
  text := ⟨"/-! ".toList, " -/".toList⟩
  code := ⟨[], []⟩
  math := ⟨"/-! $$".toList, "$$ -/".toList⟩
  collapsible := ⟨"/- begin details -/".toList, "/- end details -/".toList⟩
  titled := ⟨"/- begin details : TITLE -/".toList, "/- end details -/".toList⟩
  input := ⟨"/- begin input -/".toList, "/- end input -/".toList⟩

/-! ### Lookup -/

def ofLeafKind (g : OutputGrammar) : LeafKind → Delimiters
  | .text => g.text
  | .code => g.code
  | .math => g.math

/-- The delimiters of a kind; for collapsibles the pair without a title. -/
def ofKind (g : OutputGrammar) : AreaKind → Delimiters
  | .text => g.text
  | .code => g.code
  | .math => g.math
  | .collapsible => g.collapsible
  | .input => g.input

/-- The delimiters under a key: the name of a kind, or `collapsibletitle`. -/
def get? (g : OutputGrammar) (key : String) : Option Delimiters :=
  if key = "collapsibletitle" then some g.titled else (AreaKind.ofName? key).map g.ofKind

/-- The delimiters of a collapsible: a title that is not empty is written into the opening. -/
def ofTitle (g : OutputGrammar) (title : Text) : Delimiters :=
  if title = [] then g.collapsible
  else ⟨substituteTitle title g.titled.opening, g.titled.closing⟩

/-- The delimiters of a container. -/
def ofHeading (g : OutputGrammar) : Heading → Delimiters
  | .collapsible title => g.ofTitle title
  | .input _ => g.input

end OutputGrammar

end Worksheet
