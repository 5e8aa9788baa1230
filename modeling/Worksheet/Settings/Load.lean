import Worksheet.Settings.Basic
import Worksheet.Settings.KeyPath
import Worksheet.Toml.Document

/-! # Loading settings

  Settings are put together in layers: what is built in, then files in their order, then single
  overrides. Each layer wins over those before it. The names in a file lead to one place in the
  whole; the key of an override is a path. What results must have every setting, in a form that can
  be converted to the kind it needs, and may have more.
-/

namespace Worksheet

/-! ### Errors -/

inductive SettingsError where
  /-- The key of an override is not a path. -/
  | badKey (key : Text)
  /-- A file that is needed is not there. -/
  | missingFile
  /-- A file is not well formed. -/
  | malformedFile
  /-- An index has no place in its list. -/
  | badIndex
  /-- A setting has no value, or one that does not fit. -/
  | unfit
deriving DecidableEq

namespace Settings

/-! ### Layers -/

/-- The settings that hold when nothing is said. -/
def builtIn : List (Text × Setting) :=
  let entry (name : String) (v : Setting) : Text × Setting := (name.toList, v)
  let text (s : String) : Setting := .text s.toList
  [entry "sync" (.table [entry "typing_pause_ms" (.int 250), entry "max_latency_ms" (.int 1000)]),
    entry "server" (.table [entry "request_timeout_ms" (.int 5000),
      entry "language_ids" (.table
        [entry "coq" (text "coq"), entry "coqmd" (text "coqmd"), entry "lean" (text "lean4")])]),
    entry "output" (.table [entry "default_format" (text "coqmd"), entry "pure_lean" (.bool false)]),
    entry "logging" (.table [entry "level" (text "warn")])]

/-- Puts a value at a path. -/
def put (path : KeyPath) (v : Setting) (entries : List (Text × Setting)) :
    Except SettingsError (List (Text × Setting)) :=
  match path.put? v entries with
  | some entries => .ok entries
  | none => .error .badIndex

/-- Puts a layer over what is there. A name that reads as a path is one. -/
def overlay (layer entries : List (Text × Setting)) :
    Except SettingsError (List (Text × Setting)) :=
  layer.foldlM (fun entries (name, v) =>
    put ((KeyPath.parse? name).getD ⟨name, []⟩) v entries) entries

/-- A settings file: its text if it is there, and whether it has to be. -/
structure File where
  contents : Option Text
  required : Bool := true

/-- The layer of a file. -/
def File.layer (f : File) : Except SettingsError (List (Text × Setting)) :=
  match f.contents with
  | none => if f.required then .error .missingFile else .ok []
  | some s =>
    match Toml.parse? s with
    | some entries => .ok entries
    | none => .error .malformedFile

/-- The path and value of an override. -/
def override (key : Text) (v : Setting) : Except SettingsError (KeyPath × Setting) :=
  match KeyPath.parse? key with
  | some path => .ok (path, v)
  | none => .error (.badKey key)

/-! ### Reading the whole -/

/-- A field of a group of settings, which is a table or a list of the fields in their order. -/
def field? (group : Setting) (index : Nat) (name : String) : Option Setting :=
  match group with
  | .table entries => Setting.lookup? entries name.toList
  | .list items => items[index]?
  | _ => none

def sync? (s : Setting) : Option SyncSettings := do
  return {
    typingPause := ← (← field? s 0 "typing_pause_ms").nat?
    maxLatency := ← (← field? s 1 "max_latency_ms").nat? }

def languageIds? (s : Setting) : Option LanguageIds := do
  return {
    coq := ← (← field? s 0 "coq").text?
    coqmd := ← (← field? s 1 "coqmd").text?
    lean := ← (← field? s 2 "lean").text? }

def server? (s : Setting) : Option ServerSettings := do
  return {
    requestTimeout := ← (← field? s 0 "request_timeout_ms").nat?
    languageIds := ← languageIds? (← field? s 1 "language_ids") }

def output? (s : Setting) : Option OutputSettings := do
  return {
    defaultFormat := ← (← field? s 0 "default_format").dialect?
    preferPure := ← (← field? s 1 "pure_lean").bool? }

def logging? (s : Setting) : Option LoggingSettings := do
  return { level := ← (← field? s 0 "level").text? }

/-- The settings of a table. -/
def ofEntries? (entries : List (Text × Setting)) : Option Settings := do
  let whole := Setting.table entries
  return {
    sync := ← sync? (← field? whole 0 "sync")
    server := ← server? (← field? whole 1 "server")
    output := ← output? (← field? whole 2 "output")
    logging := ← logging? (← field? whole 3 "logging") }

/-- Loads settings from files and overrides. Keys are looked at before files are. -/
def load (files : List File) (overrides : List (Text × Setting)) :
    Except SettingsError Settings := do
  let overrides ← overrides.mapM fun (key, v) => override key v
  let entries ← overlay builtIn []
  let entries ← files.foldlM (fun entries f => do overlay (← f.layer) entries) entries
  let entries ← overrides.foldlM (fun entries (path, v) => put path v entries) entries
  match ofEntries? entries with
  | some settings => .ok settings
  | none => .error .unfit

end Settings

end Worksheet
