import Worksheet.Command.Arguments
import Worksheet.Command.Basic

/-! # Command line

  The program is called with a command, which has options of its own. A settings file and how much
  is logged can be given before the command or behind it, and what is given behind it wins. Settings
  are loaded before the command runs.
-/

namespace Worksheet

namespace CommandLine

/-! ### What may be given -/

def programName : String := "proofflow"

def version : String := "0.1.0"

/-- Options that may stand before and behind a command. -/
def shared : List OptionSpec :=
  [⟨"config", some 'c', .value⟩, ⟨"verbose", some 'v', .counter⟩, ⟨"help", some 'h', .help⟩]

/-- The format that a document is read in. -/
def sourceOption : OptionSpec := ⟨"from", some 'f', .value⟩

/-- The commands with what each of them allows. -/
def commands : List (String × Level) :=
  [("convert", { options := shared ++ [⟨"to", some 't', .value⟩, sourceOption], operands := 1 }),
    ("inspect", {
      options := shared ++
        [⟨"format", none, .value⟩, sourceOption, ⟨"show-ranges", none, .flag⟩]
      operands := 1 }),
    ("ranges", { options := shared ++ [sourceOption, ⟨"json", none, .flag⟩], operands := 1 }),
    ("extract", { options := shared ++ [⟨"dialect", some 'd', .value⟩], operands := 1 }),
    ("formats", { options := shared })]

/-- What may stand before a command. -/
def outer : Level where
  options := shared ++ [⟨"version", some 'V', .version⟩]
  commands := "help" :: commands.map (·.1)

/-- What is said about how to use the program. -/
def usage : Text :=
  ("Usage: " ++ programName ++ " [OPTIONS] <COMMAND>\n\nCommands:\n").toList ++
    commands.flatMap fun (name, _) => ' ' :: ' ' :: name.toList ++ ['\n']

/-! ### Requests -/

inductive Task where
  | convert (path : Text) (source target : Option String)
  | inspect (path : Text) (source : Option String) (format : String) (showRanges : Bool)
  | ranges (path : Text) (source : Option String) (json : Bool)
  | extract (path : Text) (dialect : Option String)
  | formats

/-- What the program is asked to do, and the settings file it is given. -/
structure Request where
  task : Task
  config : Option Text

/-- The task of a command with what is given behind it. -/
def task? (command : String) (g : Given) : Option Task :=
  let named (name : String) : Option String := (g.value? name).map String.ofList
  match command, g.operands with
  | "convert", [path] => some (.convert path (named "from") (named "to"))
  | "inspect", [path] =>
    some (.inspect path (named "from") ((named "format").getD Format.outline.name)
      (g.has "show-ranges"))
  | "ranges", [path] => some (.ranges path (named "from") (g.has "json"))
  | "extract", [path] => some (.extract path (named "dialect"))
  | "formats", [] => some .formats
  | _, _ => none

/-- Reads the arguments of the program. -/
def Request.ofArguments (args : List Text) : Except Interrupt Request := do
  match ← outer.read none {} args with
  | (_, none) => throw .misuse
  | (before, some (name, rest)) =>
    let name := String.ofList name
    match commands.find? (·.1 == name) with
    | none =>
      -- help, for one command at most
      throw (if rest.length ≤ 1 ∧ rest.all fun s => outer.commands.contains (String.ofList s)
        then .help else .misuse)
    | some (_, level) =>
      match ← level.read none {} rest with
      | (_, some _) => throw .misuse
      | (behind, none) =>
        match task? name behind with
        | none => throw .misuse
        | some task => return ⟨task, behind.value? "config" <|> before.value? "config"⟩

/-! ### Running -/

/-- How a run of the program ends. -/
inductive Outcome where
  | printed (text : Text)
  | failed (cause : CommandError)
  /-- The arguments make no sense. -/
  | misused

/-- The exit code of the program. An index without a place counts as a fault of the program. -/
def Outcome.code : Outcome → Nat
  | printed _ => 0
  | failed (.settings .badIndex) => 101
  | failed _ => 1
  | misused => 2

variable {m : Type → Type} [Monad m]

/-- A file of settings at exactly that path; `none` if there is none. -/
def settingsFileAt (files : FileAccess m) (path : Text) :
    m (Except SettingsError (Option Settings.File)) := do
  match ← files.readText path with
  | .ok s => return .ok (some { contents := some s })
  | .error .notText => return .error .malformedFile
  | .error _ => return .ok none

/-- The settings file that a path stands for: the file itself, or the one whose name goes on with
    the extension of settings files. -/
def settingsFile (files : FileAccess m) (path : Text) : ExceptT SettingsError m Settings.File := do
  match ← ExceptT.mk (settingsFileAt files path) with
  | some file => return file
  | none =>
    match FilePath.withSuffix? path ".toml".toList with
    | none => return { contents := none }
    | some other => return (← ExceptT.mk (settingsFileAt files other)).getD { contents := none }

/-- The settings of a run, with those of a file if one is named. -/
def loadSettings (files : FileAccess m) (config : Option Text) : Command.Action m Settings := do
  let layers ← match config with
    | none => pure []
    | some path => ([·]) <$> ExceptT.adapt CommandError.settings (settingsFile files path)
  match Settings.load layers [] with
  | .ok settings => return settings
  | .error e => throw (.settings e)

def Task.run (files : FileAccess m) (settings : Settings) : Task → Command.Action m Text
  | convert path source target => Command.convert files settings path source target
  | inspect path source format showRanges =>
    Command.inspect files settings path source format showRanges
  | ranges path source json => Command.ranges files settings path source json
  | extract path dialect => Command.extract files settings path dialect
  | formats => return Command.formats

/-- Runs the program with its arguments. -/
def run (files : FileAccess m) (args : List Text) : m Outcome := do
  match Request.ofArguments args with
  | .error .misuse => return .misused
  | .error .help => return .printed usage
  | .error .version => return .printed (programName ++ " " ++ version ++ "\n").toList
  | .ok request =>
    let result ← (do request.task.run files (← loadSettings files request.config)).run
    return match result with
      | .ok text => .printed text
      | .error e => .failed e

end CommandLine

end Worksheet
