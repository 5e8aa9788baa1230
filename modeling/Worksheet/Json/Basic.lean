import Worksheet.Digits

/-! # JSON values

  A JSON value as it is written: the fields of an object in their order, also repeated ones, and
  numbers told apart by whether they are written as plain natural numbers. A string whose escapes
  leave half of a surrogate pair alone is well-formed JSON but denotes no text, which `none` stands
  for.
-/

namespace Worksheet

/-- A JSON value. -/
inductive Json where
  | null
  | bool (value : Bool)
  /-- A number written with digits only. -/
  | nat (value : Nat)
  /-- Any other number, as written. -/
  | real (literal : Text)
  | str (value : Option Text)
  | arr (items : List Json)
  | obj (fields : List (Option Text × Json))

namespace Json

/-- The string of a text. -/
def ofText (s : Text) : Json := .str (some s)

/-- An object whose keys are texts. -/
def object (fields : List (String × Json)) : Json :=
  .obj (fields.map fun (key, value) => (some key.toList, value))

end Json

end Worksheet
