import Worksheet.Uri.Host
import Worksheet.Uri.Path

/-! # URIs

  A URI names its scheme, and what follows depends on that. Those of the web have a host and a path;
  those of files too, but the host may be missing and the machine itself does not count as one.
  Other schemes have a host only behind two slashes, and if no slash follows the scheme the rest is
  a text of its own kind. A query and a fragment may follow in all of them.

  Reading a URI brings it into normal form: `Uri.display` writes it without blanks around it or line
  breaks in it, with the scheme and the host in lower case, without the port that the scheme implies,
  without dots in the path, and in percent form what has to be.
-/

namespace Worksheet

/-! ### Schemes -/

inductive SchemeKind where
  | file
  | web
  | other
deriving DecidableEq

/-- The port that a scheme of the web implies. -/
def defaultPorts : List (String × Nat) :=
  [("http", 80), ("https", 443), ("ws", 80), ("wss", 443), ("ftp", 21)]

def SchemeKind.ofScheme (scheme : Text) : SchemeKind :=
  let scheme := String.ofList scheme
  if scheme = "file" then file
  else if (defaultPorts.lookup scheme).isSome then web
  else other

/-! ### Parts -/

structure Authority where
  user : Text := []
  password : Option Text := none
  host : Option Host
  port : Option Nat := none
deriving DecidableEq

structure Uri where
  scheme : Text
  authority : Option Authority := none
  path : Text
  query : Option Text := none
  fragment : Option Text := none
deriving DecidableEq

/-! ### Writing -/

def Authority.display (a : Authority) : Text :=
  (if a.user = [] ∧ a.password = none then []
    else a.user ++ (a.password.map (':' :: ·)).getD [] ++ ['@']) ++
    (a.host.map Host.display).getD [] ++ (a.port.map fun n => ':' :: decimal n).getD []

namespace Uri

/-- Writes a URI. A path that begins with two slashes is kept apart from what would be a host. -/
def display (u : Uri) : Text :=
  u.scheme ++ [':'] ++
    (match u.authority with
    | some a => '/' :: '/' :: a.display
    | none => if ['/', '/'].isPrefixOf u.path then ['/', '.'] else []) ++
    u.path ++ (u.query.map ('?' :: ·)).getD [] ++ (u.fragment.map ('#' :: ·)).getD []

/-! ### Reading -/

/-- A text without the blanks and controls around it. -/
def trim (s : Text) : Text :=
  let isOuter (c : Char) : Bool := c.toNat ≤ 0x20
  ((s.dropWhile isOuter).reverse.dropWhile isOuter).reverse

/-- A scheme in lower case, and what follows its colon. -/
def scheme? (s : Text) : Option (Text × Text) :=
  let isPart (c : Char) : Bool := c.isAlphanum || ['+', '-', '.'].contains c
  let (scheme, rest) := s.span (· ≠ ':')
  match UriPath.unbroken scheme with
  | [] => none
  | first :: scheme =>
    if first.isAlpha && scheme.all isPart && rest ≠ [] then
      some (Text.asciiLower (first :: scheme), rest.drop 1)
    else none

/-- Whether a character divides the segments of a path. -/
def isSlash (kind : SchemeKind) (c : Char) : Bool := c == '/' || (kind ≠ .other && c == '\\')

/-- Reads a port; the one that the scheme implies is left out. -/
def port? (scheme digits : Text) : Option (Option Nat) :=
  if digits = [] then some none
  else
    ((Digits.number? 10 digits).filter (· < Nat.pow 2 16)).map fun n =>
      if defaultPorts.lookup (String.ofList scheme) = some n then none else some n

/-- Splits a text before the first colon that is not between brackets. -/
def cutPort : (isBracketed : Bool) → Text → Text × Text
  | _, [] => ([], [])
  | isBracketed, c :: s =>
    if c = ':' ∧ ¬ isBracketed then ([], c :: s)
    else
      let (host, port) := cutPort (c = '[' || (isBracketed && c ≠ ']')) s
      (c :: host, port)

/-- The name and the password of a user. -/
def userOf (s : Text) : Text × Option Text :=
  let (user, password) := s.span (· ≠ ':')
  let encode := Percent.encode Percent.user
  (encode user, if password.length ≤ 1 then none else some (encode (password.drop 1)))

/-- Reads what stands between two slashes and the path. A backslash behind the port begins the path;
    what it begins is given too. -/
def authority? (scheme s : Text) : Option (Authority × Text) := do
  let kind := SchemeKind.ofScheme scheme
  let (hostAndPort, userInfo) := s.reverse.span (· ≠ '@')
  let (user, password) := userOf (userInfo.drop 1).reverse
  let (host, port) := cutPort false hostAndPort.reverse
  let (port, rest) := port.span (· ≠ '\\')
  let host ← if kind = .other then Host.plain? host else Host.special? host
  if host = .name [] ∧ (port ≠ [] ∨ user ≠ [] ∨ password ≠ none) then none
  else return ({ user, password, host, port := ← port? scheme (port.drop 1) }, rest)

/-- The texts between the slashes of a path. -/
def split (kind : SchemeKind) (path : Text) : List Text := path.splitOnP (isSlash kind)

/-- What follows a slash at the start of a text, if there is one. -/
def afterSlash? (kind : SchemeKind) (s : Text) : Option Text :=
  match s.dropWhile UriPath.isBreak with
  | c :: rest => if isSlash kind c then some rest else none
  | [] => none

/-- The texts between the slashes of a path behind a host. -/
def rooted (kind : SchemeKind) (path : Text) : List Text :=
  split kind ((afterSlash? kind path).getD path)

/-- The host and the path of a file. A host that is a drive belongs to the path, and a drive at the
    start of the path takes the place of the host. Slashes at the start of the path count as one. -/
def fileParts? (s : Text) : Option (Option Host × Text) := do
  let (host, parts) ← match (afterSlash? .file s).bind (afterSlash? .file) with
    | none => pure (none, rooted .file s)
    | some rest =>
      let (name, path) := rest.span fun c => ! isSlash .file c
      let name := UriPath.unbroken name
      if UriPath.isDrive name then pure (none, split .file rest)
      else if name = [] then pure (none, split .file path)
      else
        let host ← Host.special? name
        if host = .name "localhost".toList then pure (none, split .file path)
        else pure (some host, rooted .file path)
  let path := UriPath.resolve true [] parts
  let isDriven := path.head?.any fun segment => UriPath.isDrive segment.text && ! segment.isFixed
  return (if isDriven then none else host, UriPath.display (path.dropWhile (·.text = [])))

/-- The authority and the path of a URI, of what follows its scheme up to the query. -/
def place? (scheme s : Text) : Option (Option Authority × Text) :=
  let resolved (kind : SchemeKind) (path : Text) : Text :=
    UriPath.display (UriPath.resolve false [] (rooted kind path))
  let behind (kind : SchemeKind) (s : Text) : Option (Option Authority × Text) := do
    let (authority, path) := s.span fun c => ! isSlash kind c
    let (authority, start) ← authority? scheme authority
    if kind = .other ∧ start ++ path = [] then return (some authority, [])
    else return (some authority, resolved kind (start ++ path))
  let whole := UriPath.unbroken s
  match SchemeKind.ofScheme scheme with
  | .file => (fileParts? s).map fun (host, path) => (some { host }, path)
  | .web => behind .web (whole.dropWhile (isSlash .web))
  | .other =>
    match whole with
    | '/' :: '/' :: rest => behind .other rest
    | '/' :: _ => some (none, resolved .other whole)
    | _ => some (none, Percent.encode [] whole)

/-- Reads a URI. -/
def parse? (s : Text) : Option Uri := do
  let (scheme, s) ← scheme? (trim s)
  let (s, fragment) := s.span (· ≠ '#')
  let (s, query) := s.span (· ≠ '?')
  let (authority, path) ← place? scheme s
  let inQuery := if SchemeKind.ofScheme scheme = .other then Percent.query
    else '\x27' :: Percent.query
  let part (special : List Char) (s : Text) : Option Text :=
    if s = [] then none else some (Percent.encode special (UriPath.unbroken (s.drop 1)))
  return { scheme, authority, path, query := part inQuery query,
           fragment := part Percent.fragment fragment }

/-- A URI in normal form; a text that is none stays as it is. -/
def normalize (s : Text) : Text := ((parse? s).map display).getD s

end Uri

end Worksheet
