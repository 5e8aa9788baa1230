import Worksheet.Text

/-! # Arguments

  The arguments of a program are options, operands and commands. An option is written with two
  dashes and its name, or with one dash and a letter, and letters may share a dash. An option with a
  value takes it from behind an equals sign, from the rest of its letters, or from the argument
  after it, which must not begin with a dash unless it is nothing but one. Behind two dashes alone
  everything is an operand.

  A level of arguments ends at the name of a command, which has a level of its own. Arguments are
  looked at from left to right, and the first thing that ends the reading early decides: a mistake,
  or an option that asks about the program.
-/

namespace Worksheet

/-! ### What a level allows -/

inductive OptionKind where
  /-- Given once, without a value. -/
  | flag
  /-- Given any number of times, without a value. -/
  | counter
  /-- Given once, with a value. -/
  | value
  /-- Asks how the program is used. -/
  | help
  /-- Asks for the version of the program. -/
  | version
deriving DecidableEq

structure OptionSpec where
  name : String
  letter : Option Char := none
  kind : OptionKind

/-- What a level of arguments may hold. -/
structure Level where
  options : List OptionSpec
  commands : List String := []
  /-- How many operands there may be. -/
  operands : Nat := 0

/-! ### What is found -/

/-- Why reading ends early. -/
inductive Interrupt where
  /-- The arguments make no sense. -/
  | misuse
  | help
  | version
deriving DecidableEq

/-- What a level of arguments holds. -/
structure Given where
  /-- Options by name, with the values of those that have one. -/
  options : List (String × Option Text) := []
  operands : List Text := []

namespace Given

/-- Whether an option is given. -/
def has (g : Given) (name : String) : Bool := g.options.any (·.1 == name)

/-- The value of an option. -/
def value? (g : Given) (name : String) : Option Text :=
  (g.options.find? (·.1 == name)).bind (·.2)

/-- Adds an option; one that is neither a counter nor new is a mistake. -/
def addOption (g : Given) (o : OptionSpec) (value : Option Text) : Except Interrupt Given :=
  match o.kind with
  | .help => .error .help
  | .version => .error .version
  | .counter => .ok { g with options := g.options ++ [(o.name, value)] }
  | .flag | .value =>
    if g.has o.name then .error .misuse
    else .ok { g with options := g.options ++ [(o.name, value)] }

/-- Adds an operand, of which there may be so many. -/
def addOperand (g : Given) (limit : Nat) (operand : Text) : Except Interrupt Given :=
  if g.operands.length < limit then .ok { g with operands := g.operands ++ [operand] }
  else .error .misuse

end Given

/-! ### Reading -/

namespace Level

/-- Whether an argument begins an option. -/
def isDashed : Text → Bool
  | '-' :: _ :: _ => true
  | _ => false

/-- Reads letters that share a dash: what is given, and the option that still needs its value. -/
def letters (level : Level) : Text → Given → Except Interrupt (Given × Option OptionSpec)
  | [], g => .ok (g, none)
  | c :: rest, g =>
    match level.options.find? (·.letter == some c) with
    | none => .error .misuse
    | some o =>
      if o.kind = .value then
        match rest with
        | [] => .ok (g, some o)
        | '=' :: value => (g.addOption o value).map (·, none)
        | value => (g.addOption o value).map (·, none)
      else do level.letters rest (← g.addOption o none)

/-- Reads an option by its name, with what an equals sign attaches to it. -/
def named (level : Level) (s : Text) (g : Given) : Except Interrupt (Given × Option OptionSpec) :=
  let (name, attached) := s.span (· ≠ '=')
  match level.options.find? (·.name.toList == name) with
  | none => .error .misuse
  | some o =>
    match decide (o.kind = .value), attached with
    | true, [] => .ok (g, some o)
    | true, _ :: value => (g.addOption o value).map (·, none)
    | false, [] => (g.addOption o none).map (·, none)
    | false, _ :: _ => .error .misuse

/-- Reads the arguments of a level: what is given, and the command that ends it with the arguments
    behind that. `pending` is an option that the next argument is the value of. -/
def read (level : Level) : (pending : Option OptionSpec) → Given → List Text →
    Except Interrupt (Given × Option (Text × List Text))
  | none, g, [] => .ok (g, none)
  | some _, _, [] => .error .misuse
  | some o, g, arg :: rest =>
    if isDashed arg then .error .misuse
    else do level.read none (← g.addOption o arg) rest
  | none, g, arg :: rest =>
    if level.commands.contains (String.ofList arg) then .ok (g, some (arg, rest))
    else
      match arg with
      | ['-', '-'] =>
        (rest.foldlM (fun (g : Given) s => g.addOperand level.operands s) g).map (·, none)
      | '-' :: '-' :: name => do
        let (g, pending) ← level.named name g
        level.read pending g rest
      | '-' :: c :: letters => do
        let (g, pending) ← level.letters (c :: letters) g
        level.read pending g rest
      | operand => do level.read none (← g.addOperand level.operands operand) rest

end Level

end Worksheet
