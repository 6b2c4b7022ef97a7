import PagePreview.Url.Host

/-!
# Addresses of resources

A `Url` is an address taken apart: its scheme, where the resource lives, the
path to it, a query and a fragment. All parts are kept in the form in which
they are written, so `Url.chars` only puts them together.

A path is a row of segments with a slash before each one, or, for schemes
without a hierarchy, just text.
-/

namespace PagePreview.Url

/-- The user and the host of an address. -/
structure Authority where
  user : List Char := []
  password : List Char := []
  host : Host
  port : Option Nat := none
deriving DecidableEq, Repr

inductive Path where
  | plain (text : List Char)
  | segments (segments : List (List Char))
deriving DecidableEq, Repr

def Path.chars : Path → List Char
  | .plain text => text
  | .segments parts => parts.flatMap ('/' :: ·)

/-- The sorts of schemes: the common ones with a host, files, and all others. -/
inductive SchemeKind where
  | special
  | file
  | other
deriving DecidableEq, Repr

/-- The common schemes and their ports. -/
def specialPorts : List (String × Nat) :=
  [("http", 80), ("https", 443), ("ws", 80), ("wss", 443), ("ftp", 21)]

def defaultPort? (scheme : List Char) : Option Nat := specialPorts.lookup (String.ofList scheme)

def SchemeKind.of (scheme : List Char) : SchemeKind :=
  if (defaultPort? scheme).isSome then .special
  else if scheme == "file".toList then .file
  else .other

/-- Whether a backslash separates the segments of a path as well. -/
def SchemeKind.allowsBackslash : SchemeKind → Bool
  | .special => true
  | .file => true
  | .other => false

end PagePreview.Url

namespace PagePreview

structure Url where
  scheme : List Char
  authority : Option Url.Authority := none
  path : Url.Path
  query : Option (List Char) := none
  fragment : Option (List Char) := none
deriving DecidableEq, Repr

namespace Url

def Authority.chars (a : Authority) : List Char :=
  a.user ++ (if a.password.isEmpty then [] else ':' :: a.password) ++
    (if a.user.isEmpty && a.password.isEmpty then [] else ['@']) ++
    a.host.chars ++
    (match a.port with
      | some p => ':' :: Decimal.natDigits p
      | none => [])

/-- What stands before the path. A path that begins with two slashes gets a segment `.` in front,
or else its first segment would be read as a host. -/
def front (u : Url) : List Char :=
  match u.authority, u.path with
  | some a, _ => '/' :: '/' :: a.chars
  | none, .segments ([] :: _ :: _) => ['/', '.']
  | none, _ => []

def chars (u : Url) : List Char :=
  u.scheme ++ ':' :: u.front ++ u.path.chars ++
    (match u.query with
      | some q => '?' :: q
      | none => []) ++
    (match u.fragment with
      | some f => '#' :: f
      | none => [])

instance : ToString Url := ⟨fun u => String.ofList u.chars⟩

def kind (u : Url) : SchemeKind := .of u.scheme

/-- Whether other addresses can be given relative to this one. -/
def isHierarchical (u : Url) : Bool :=
  match u.path with
  | .plain _ => false
  | .segments _ => true

end Url

end PagePreview
