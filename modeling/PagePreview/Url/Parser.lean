import PagePreview.Text.Blank
import PagePreview.Text.Search
import PagePreview.Url.PathReader

/-!
# Reading addresses

`Url.parse` reads an address that stands for itself and `Url.join` one that
is given relative to another. Tabs and line ends in an address do not count,
nor do blanks and control characters around it.

An address with a scheme is read on its own, except that a common scheme
with fewer than two slashes behind it continues a base of the same scheme.
-/

namespace PagePreview.Url

open Text

/-! ## Scheme, user and port -/

def isIgnored (c : Char) : Bool := c == '\t' || c == '\n' || c == '\r'

def isOuterBlank (c : Char) : Bool := c.toNat ≤ 0x20

/-- The characters of an address that count. -/
def significant (cs : List Char) : List Char :=
  (dropEndWhile isOuterBlank (cs.dropWhile isOuterBlank)).filter (!isIgnored ·)

def isSchemeChar (c : Char) : Bool := c.isAlphanum || c == '+' || c == '-' || c == '.'

/-- The scheme in front of a colon, in lower case, and what follows the colon. -/
def splitScheme (cs : List Char) : Option (List Char × List Char) :=
  match cs with
  | [] => none
  | c :: _ =>
    match cs.dropWhile isSchemeChar with
    | ':' :: rest => if c.isAlpha then some (lowerChars (cs.takeWhile isSchemeChar), rest) else none
    | _ => none

/-- Whether a character ends the authority. -/
def endsAuthority (kind : SchemeKind) (c : Char) : Bool := isSlash kind c || endsPath c

/-- The part before the last `@` and the part behind it. -/
def splitUser (authority : List Char) : Option (List Char × List Char) :=
  let back := authority.reverse
  match back.dropWhile (· != '@') with
  | [] => none
  | _ :: user => some (user.reverse, (back.takeWhile (· != '@')).reverse)

/-- The name and the password of a user. -/
def userParts (cs : List Char) : List Char × List Char :=
  (percentEncode inUserSet (cs.takeWhile (· != ':')),
    percentEncode inUserSet ((cs.dropWhile (· != ':')).drop 1))

/-- The host in front of a port; a colon inside brackets belongs to the host. -/
def splitPort (inBrackets : Bool) : List Char → List Char × Option (List Char)
  | [] => ([], none)
  | c :: cs =>
    if c == ':' && !inBrackets then ([], some cs)
    else
      let inside := if c == '[' then true else if c == ']' then false else inBrackets
      let (host, port) := splitPort inside cs
      (c :: host, port)

/-- The port; none if it is the one the scheme implies or if there are no digits. -/
def port? (scheme cs : List Char) : Except Fault (Option Nat) :=
  if !cs.all Char.isDigit then .error .invalidPort
  else
    let n := cs.foldl (fun (acc : Nat) c => acc * 10 + (c.toNat - 48)) 0
    if 65535 < n then .error .invalidPort
    else .ok (if cs.isEmpty || defaultPort? scheme == some n then none else some n)

/-- Reads what stands between the two slashes and the path; `atEnd` tells whether nothing follows
it. -/
def readAuthority (scheme : List Char) (cs : List Char) (atEnd : Bool) :
    Except Fault Authority := do
  let special := SchemeKind.of scheme == .special
  let (user, hostAndPort) := (splitUser cs).getD ([], cs)
  if cs == ['@'] && !atEnd then throw .emptyHost
  let (host, port) := splitPort false hostAndPort
  if special && host.isEmpty then throw .emptyHost
  let host ← if special then specialHost host else plainHost host
  if host == .name [] && port.isSome then throw .emptyHost
  let port ← match port with
    | some digits => port? scheme digits
    | none => .ok none
  let (name, password) := userParts user
  if host == .name [] && !(name.isEmpty && password.isEmpty) then throw .emptyHost
  return ⟨name, password, host, port⟩

/-! ## Query and fragment -/

def readFragment (cs : List Char) : List Char := percentEncode inFragmentSet cs

/-- The query and the fragment in the rest of an address. -/
def queryAndFragment (kind : SchemeKind) (cs : List Char) :
    Option (List Char) × Option (List Char) :=
  let fragment (cs : List Char) : Option (List Char) :=
    match cs with
    | '#' :: rest => some (readFragment rest)
    | _ => none
  match cs with
  | '?' :: rest =>
    let set := if kind == .other then inQuerySet else inSpecialQuerySet
    (some (percentEncode set (rest.takeWhile (· != '#'))), fragment (rest.dropWhile (· != '#')))
  | cs => (none, fragment cs)

/-- An address that ends with this rest behind its path. -/
def complete (scheme : List Char) (authority : Option Authority) (path : Path)
    (rest : List Char) : Url :=
  let (query, fragment) := queryAndFragment (.of scheme) rest
  ⟨scheme, authority, path, query, fragment⟩

/-! ## Addresses with a scheme -/

/-- Reads what follows the two slashes. -/
def behindSlashes (scheme cs : List Char) : Except Fault Url := do
  let kind := SchemeKind.of scheme
  let behind := cs.dropWhile (!endsAuthority kind ·)
  let a ← readAuthority scheme (cs.takeWhile (!endsAuthority kind ·)) behind.isEmpty
  let (segments, _, rest) := readPathBehindHost kind behind
  return complete scheme (some a) (.segments segments) rest

/-- An address of a scheme without meaning. -/
def otherUrl (scheme cs : List Char) : Except Fault Url :=
  match cs with
  | '/' :: '/' :: rest => behindSlashes scheme rest
  | '/' :: rest =>
    let (segments, _, rest) := readPathBelow .other [] rest
    .ok (complete scheme none (.segments segments) rest)
  | cs =>
    let text := percentEncode inControlSet (cs.takeWhile (!endsPath ·))
    .ok (complete scheme none (.plain text) (cs.dropWhile (!endsPath ·)))

def fileScheme : List Char := "file".toList

/-- The authority of a file that is on no host. -/
def noHost : Authority := { host := .name [] }

/-- The host in an address of a file; the host on which the file is at hand counts as none. -/
def fileHost (cs : List Char) : Except Fault Authority := do
  if cs.isEmpty then return noHost
  else
    let host ← specialHost cs
    return if host == .name "localhost".toList then noHost else { host }

def fileUrl (a : Authority) (segments : List (List Char)) (sawDrive : Bool) (rest : List Char) :
    Url :=
  complete fileScheme (some (if sawDrive then noHost else a))
    (.segments (if segments.isEmpty then [[]] else segments)) rest

/-- Whether a path begins with a drive letter. -/
def startsWithDrive (cs : List Char) : Bool :=
  isDriveLetter (cs.take 2) &&
    (match cs.drop 2 with
      | [] => true
      | c :: _ => c == '/' || c == '\\' || endsPath c)

/-- The segments of a path, last first, without the last one. A drive that stands alone stays. -/
def directoryOf (segments : List (List Char)) : List (List Char) :=
  match segments.reverse with
  | [] => []
  | last :: before => if isPlainDriveLetter last then last :: before else before

/-- The segments of an address that has a path. -/
def segments (u : Url) : List (List Char) :=
  match u.path with
  | .segments s => s
  | .plain _ => []

/-- Reads the address of a file behind its scheme, or one given relative to that of a file. -/
def fileFrom (base : Option Url) (cs : List Char) : Except Fault Url :=
  let slash (c : Char) : Bool := isSlash .file c
  let below (a : Authority) (dirs : List (List Char)) (cs : List Char) : Url :=
    let (segments, sawDrive, rest) := readPathBelow .file dirs cs
    fileUrl a segments sawDrive rest
  match cs with
  | a :: b :: rest =>
    if slash a && slash b then do
      let ends (c : Char) : Bool := slash c || endsPath c
      let host := rest.takeWhile (!ends ·)
      if isDriveLetter host then return below noHost [] rest
      let a ← fileHost host
      let path := rest.dropWhile (!ends ·)
      if a == noHost then return below noHost [] path
      else
        let (segments, sawDrive, rest) := readPathBehindHost .file path
        return fileUrl a segments sawDrive rest
    else if slash a then .ok (absolute below base (b :: rest))
    else .ok (relative below base (a :: b :: rest))
  | [a] => if slash a then .ok (absolute below base []) else .ok (relative below base [a])
  | [] => .ok (relative below base [])
where
  /-- One slash: the host and the drive are those of the base. -/
  absolute (below : Authority → List (List Char) → List Char → Url) (base : Option Url)
      (cs : List Char) : Url :=
    match base with
    | none => below noHost [] cs
    | some u =>
      if startsWithDrive cs then below noHost [] cs
      else match u.segments with
        | first :: _ =>
          if isPlainDriveLetter first then below noHost [first] cs
          else below (u.authority.getD noHost) [] cs
        | [] => below (u.authority.getD noHost) [] cs
  relative (below : Authority → List (List Char) → List Char → Url) (base : Option Url)
      (cs : List Char) : Url :=
    match base with
    | none => below noHost [] cs
    | some u =>
      match cs with
      | [] => { u with fragment := none }
      | '#' :: rest => { u with fragment := some (readFragment rest) }
      | '?' :: _ => complete fileScheme u.authority u.path cs
      | cs =>
        if startsWithDrive cs then below noHost [] cs
        else below (u.authority.getD noHost) (directoryOf u.segments) cs

/-! ## Relative addresses -/

/-- Reads an address given relative to one of any other scheme. -/
def relativeTo (base : Url) (cs : List Char) : Except Fault Url :=
  let kind := base.kind
  match cs with
  | [] => .ok { base with fragment := none }
  | '?' :: _ => .ok (complete base.scheme base.authority base.path cs)
  | '#' :: rest => .ok { base with fragment := some (readFragment rest) }
  | c :: rest =>
    let slash (c : Char) : Bool := c == '/' || c == '\\'
    if slash c then
      if rest.head?.any slash then
        match cs with
        | '/' :: '/' :: behind => behindSlashes base.scheme behind
        | cs => behindSlashes base.scheme (cs.dropWhile slash)
      else
        let (segments, _, rest) := readPathBelow kind [] rest
        .ok (complete base.scheme base.authority (.segments segments) rest)
    else
      let dirs := (base.segments.reverse).drop 1
      let (segments, _, rest) := readPathBelow kind dirs cs
      .ok (complete base.scheme base.authority (.segments segments) rest)

/-- Reads an address behind its scheme. -/
def withScheme (base : Option Url) (scheme cs : List Char) : Except Fault Url :=
  let sameScheme := base.filter (·.scheme == scheme)
  match SchemeKind.of scheme with
  | .file => fileFrom sameScheme cs
  | .other => otherUrl scheme cs
  | .special =>
    let slashes := cs.takeWhile fun c => c == '/' || c == '\\'
    match sameScheme with
    | some u =>
      if slashes.length < 2 then relativeTo u cs
      else behindSlashes scheme (cs.drop slashes.length)
    | none => behindSlashes scheme (cs.drop slashes.length)

/-- Reads an address, relative to `base` if there is one and the address has no scheme. -/
def parseFrom (base : Option Url) (text : List Char) : Except Fault Url :=
  let cs := significant text
  match splitScheme cs with
  | some (scheme, rest) => withScheme base scheme rest
  | none =>
    match base with
    | none => .error .noBase
    | some u =>
      match cs with
      | '#' :: rest => .ok { u with fragment := some (readFragment rest) }
      | cs =>
        if !u.isHierarchical then .error .baseWithoutPath
        else if u.kind == .file then fileFrom (some u) cs
        else relativeTo u cs

/-- Reads an address that stands for itself. -/
def parse (text : List Char) : Except Fault Url := parseFrom none text

/-- Reads an address that is given relative to `base`. -/
def join (base : Url) (text : List Char) : Except Fault Url := parseFrom (some base) text

end PagePreview.Url
