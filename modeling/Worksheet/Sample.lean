import Worksheet.Reading

/-! # Samples

  One worksheet about the natural numbers in every dialect. Each is in canonical form: read and
  written again in its dialect it stays as it is.
-/

namespace Worksheet

/-- A worksheet that comes with the library. -/
structure Sample where
  name : String
  dialect : Dialect
  source : Text

namespace Sample

/-- The text of some lines, each ended by a line feed. -/
def ofLines (lines : List String) : Text := lines.flatMap fun line => line.toList ++ ['\n']

def coq : Sample where
  name := "naturals.v"
  dialect := .coq
  source := ofLines [
    "(** * Natural numbers",
    "",
    "    Addition is defined by recursion on the first argument. *)",
    "Theorem plus_0 : forall n, n + 0 = n.",
    "(* begin details : Hint *)(** Use induction on [n]. *)",
    "induction n.",
    "(* end details *)",
    "(* begin input *)",
    "Proof.",
    "  intros n.",
    "Admitted.",
    "(* end input *)",
    "(** $$n + 0 = n$$ *)"]

def coqmd : Sample where
  name := "naturals.mv"
  dialect := .coqmd
  source := ofLines [
    "# Natural numbers",
    "",
    "Addition is defined by recursion on the first argument.",
    "```coq",
    "Theorem plus_0 : forall n, n + 0 = n.",
    "```",
    "<hint title=\"Hint\">",
    "Use induction on `n`.",
    "```coq",
    "induction n.",
    "```",
    "</hint>",
    "<input-area>",
    "```coq",
    "Proof.",
    "  intros n.",
    "Admitted.",
    "```",
    "</input-area>",
    "The goal is $$n + 0 = n$$."]

def lean : Sample where
  name := "naturals.lean"
  dialect := .lean
  source := ofLines [
    ":::text",
    "# Natural numbers",
    "",
    "Addition is defined by recursion on the first argument.",
    ":::",
    ":::code",
    "theorem plus_zero (n : Nat) : n + 0 = n := by",
    "  sorry",
    ":::",
    ":::collapsible",
    "# Hint",
    ":::text",
    "Use `simp`.",
    ":::",
    ":::code",
    "simp",
    ":::",
    ":::",
    ":::input",
    ":::code",
    "example : 2 + 2 = 4 := by",
    "  sorry",
    ":::",
    ":::",
    ":::math",
    "n + 0 = n",
    ":::"]

def leanPure : Sample where
  name := "naturals_pure.lean"
  dialect := .leanPure
  source := ofLines [
    "/-! # Natural numbers",
    "",
    "Addition is defined by recursion on the first argument. -/",
    "theorem plus_zero (n : Nat) : n + 0 = n := by",
    "  simp",
    "/- begin details : Hint -/",
    "/-! Use `simp`. -/",
    "simp",
    "/- end details -/",
    "/- begin input -/",
    "example : 2 + 2 = 4 := by",
    "  sorry",
    "/- end input -/",
    "/-! $$n + 0 = n$$ -/"]

/-- The sample of a dialect. -/
def ofDialect : Dialect → Sample
  | .coq => coq
  | .coqmd => coqmd
  | .lean => lean
  | .leanPure => leanPure

def uri (s : Sample) : Text := "file:///samples/".toList ++ s.name.toList

/-- The document of a sample, with its ranges. -/
def document (s : Sample) : Document :=
  (s.dialect.parseDocument s.uri s.source {}).1.updateBounds.1

end Sample

end Worksheet
