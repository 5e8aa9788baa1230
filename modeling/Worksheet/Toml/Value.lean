import Worksheet.Settings.Setting
import Worksheet.Toml.Moment

/-! # Values of a file

  A value of a file becomes a setting, where dates and times become texts. A date or a time may also
  be given as a text in a table that names it so first; whatever else such a table holds does not
  count.
-/

namespace Worksheet.Toml

inductive Value where
  | bool (value : Bool)
  | int (value : Int)
  | real (value : Float)
  | text (value : Text)
  /-- A date, a time, or both. -/
  | moment (written : Text)
  | list (items : List Value)
  | table (entries : List (Text × Value))

namespace Value

/-- The name under which a table gives a date or a time as a text. -/
def momentName : Text := "$__toml_private_datetime".toList

mutual

/-- The setting of a value; `none` if it holds a date or a time that is not well formed. -/
def toSetting? : Value → Option Setting
  | bool b => some (.bool b)
  | int n => some (.int n)
  | real x => some (.real x)
  | text s => some (.text s)
  | moment s => some (.text s)
  | list items => (toSettings? items).map .list
  | table [] => some (.table [])
  | table ((name, v) :: rest) =>
    if name = momentName then
      match v with
      | text s => (moment? .lenient s).map .text
      | _ => none
    else do return .table ((name, ← v.toSetting?) :: (← toEntries? rest))

def toSettings? : List Value → Option (List Setting)
  | [] => some []
  | v :: rest => do return (← v.toSetting?) :: (← toSettings? rest)

def toEntries? : List (Text × Value) → Option (List (Text × Setting))
  | [] => some []
  | (name, v) :: rest => do return (name, ← v.toSetting?) :: (← toEntries? rest)

end

end Value

end Worksheet.Toml
