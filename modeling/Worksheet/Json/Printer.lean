import Worksheet.Json.Basic

/-! # Printing JSON

  Values are laid out over lines, each level indented by two more blanks. An array or object with
  nothing in it takes no lines of its own.
-/

namespace Worksheet

namespace Json

/-- A character inside a string. Quotes, backslashes and control characters are escaped. -/
def escape (c : Char) : Text :=
  match c with
  | '"' => ['\\', '"']
  | '\\' => ['\\', '\\']
  | '\x08' => ['\\', 'b']
  | '\x0c' => ['\\', 'f']
  | '\n' => ['\\', 'n']
  | '\r' => ['\\', 'r']
  | '\t' => ['\\', 't']
  | c =>
    if c.toNat < 0x20 then
      ['\\', 'u', '0', '0', Digits.hex (c.toNat / 16), Digits.hex (c.toNat % 16)]
    else [c]

/-- A text between quotes. -/
def quote (s : Text) : Text := '"' :: s.flatMap escape ++ ['"']

/-- A line break and the indentation of a level. -/
def newLine (level : Nat) : Text := '\n' :: List.replicate (2 * level) ' '

mutual

/-- A value, where its first line is already indented to the given level. -/
def pretty (level : Nat) : Json → Text
  | .null => "null".toList
  | .bool b => if b then "true".toList else "false".toList
  | .nat n => decimal n
  | .real literal => literal
  | .str s => quote (s.getD [])
  | .arr [] => ['[', ']']
  | .arr items => '[' :: prettyItems (level + 1) items ++ newLine level ++ [']']
  | .obj [] => ['\x7b', '\x7d']
  | .obj fields => '\x7b' :: prettyFields (level + 1) fields ++ newLine level ++ ['\x7d']

/-- Items of an array, each on lines of its own. -/
def prettyItems (level : Nat) : List Json → Text
  | [] => []
  | [v] => newLine level ++ pretty level v
  | v :: rest => newLine level ++ pretty level v ++ ',' :: prettyItems level rest

/-- Fields of an object, each on lines of its own. -/
def prettyFields (level : Nat) : List (Option Text × Json) → Text
  | [] => []
  | [(key, v)] => newLine level ++ quote (key.getD []) ++ ':' :: ' ' :: pretty level v
  | (key, v) :: rest =>
    newLine level ++ quote (key.getD []) ++ ':' :: ' ' :: pretty level v ++
      ',' :: prettyFields level rest

end

end Json

end Worksheet
