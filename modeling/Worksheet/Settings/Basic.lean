import Worksheet.Dialect
import Worksheet.Duration

/-! # Settings

  What can be set: when edits are sent to the language server, how long it may take to answer and
  what it is told a file is written in, how documents are written when nothing else is asked for,
  and how much is logged.
-/

namespace Worksheet

/-- When edits are sent to the server. -/
structure SyncSettings where
  /-- An edit after a longer pause than this is sent at once. -/
  typingPause : Duration
  /-- Typing without a pause is held back no longer than this. -/
  maxLatency : Duration
deriving DecidableEq

/-- The names by which the server knows the types of files. -/
structure LanguageIds where
  coq : Text
  coqmd : Text
  lean : Text
deriving DecidableEq

/-- The name for a type of file. -/
def LanguageIds.ofFileType? (ids : LanguageIds) : FileType → Option Text
  | .coq => some ids.coq
  | .coqmd => some ids.coqmd
  | .lean => some ids.lean
  | .unknown => none

structure ServerSettings where
  /-- How long the server may take to answer. -/
  requestTimeout : Duration
  languageIds : LanguageIds
deriving DecidableEq

structure OutputSettings where
  /-- The dialect that documents are written in when none is named. -/
  defaultFormat : Dialect
  /-- Files of Lean hold plain source rather than blocks. -/
  preferPure : Bool
deriving DecidableEq

structure LoggingSettings where
  level : Text
deriving DecidableEq

structure Settings where
  sync : SyncSettings
  server : ServerSettings
  output : OutputSettings
  logging : LoggingSettings
deriving DecidableEq

end Worksheet
