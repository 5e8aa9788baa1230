import Worksheet.Unicode.Composition
import Worksheet.Unicode.Folding
import Worksheet.Uri.Address
import Worksheet.Uri.Label
import Worksheet.Uri.Percent

/-! # Hosts

  The host of a URI is a name or a numeric address. In the schemes of the web and of files a name
  is decoded, folded, composed and put into ASCII, and one whose last part is a number is an
  address; in other schemes a name is taken as it is.
-/

namespace Worksheet

inductive Host where
  | name (name : Text)
  | version4 (address : Nat)
  | version6 (pieces : List Nat)
deriving DecidableEq

namespace Host

def display : Host → Text
  | name s => s
  | version4 n => Address.display4 n
  | version6 pieces => '[' :: Address.display6 pieces ++ [']']

/-- Characters that end other parts of a URI, and so cannot be in a host. -/
def isForbidden (c : Char) : Bool :=
  ['\x00', '\t', '\n', '\r', ' ', '#', '/', ':', '<', '>', '?', '@', '[', '\\', ']', '^', '|'].contains c

/-- Characters that cannot be in a decoded name. -/
def isForbiddenInName (c : Char) : Bool := isForbidden c || c.toNat ≤ 0x20 || c == '%' || c == '\x7F'

/-- Reads an address between brackets. -/
def bracketed? (s : Text) : Option Host :=
  if s.getLast? = some ']' then (Address.version6? s.dropLast).map .version6 else none

/-- A name as the schemes of the web and of files know it. -/
def canonical? (s : Text) : Option Text := do
  let name := Unicode.compose (Unicode.fold (← Utf8.decode? (Percent.decode s)))
  let s := List.intercalate ['.'] ((name.splitOn '.').map Label.toAscii)
  if s = [] ∨ s.any isForbiddenInName then none else some s

/-- Reads a host in the schemes of the web and of files. -/
def special? : Text → Option Host
  | '[' :: s => bracketed? s
  | s => do
    let s ← canonical? s
    if Address.endsInNumber s then (Address.version4? s).map .version4 else some (.name s)

/-- Reads a host in other schemes. It may be empty. -/
def plain? : Text → Option Host
  | '[' :: s => bracketed? s
  | s => if s.any isForbidden then none else some (.name (Percent.encode [] s))

end Host

end Worksheet
