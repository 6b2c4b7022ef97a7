import PagePreview.Url.Basic

/-!
# Reading the path of an address

The text of a path is cut at slashes. A segment `.` disappears and a segment
`..` takes the one before it along; both may be written with escapes. What
remains is percent encoded.

A drive letter, that is a letter and a colon, is not taken along by `..`.
In addresses of files it is always the first segment, and then the address
has no host.
-/

namespace PagePreview.Url

/-- The characters that end a path. -/
def endsPath (c : Char) : Bool := c == '?' || c == '#'

def isSlash (kind : SchemeKind) (c : Char) : Bool :=
  c == '/' || (c == '\\' && kind.allowsBackslash)

/-- A segment with its escaped full stops written out. -/
def plainDots : List Char → List Char
  | '%' :: '2' :: 'e' :: rest => '.' :: plainDots rest
  | '%' :: '2' :: 'E' :: rest => '.' :: plainDots rest
  | c :: rest => c :: plainDots rest
  | [] => []

def isDot (segment : List Char) : Bool := plainDots segment == ['.']
def isDoubleDot (segment : List Char) : Bool := plainDots segment == ['.', '.']

/-- A letter, and a colon or a bar. -/
def isDriveLetter : List Char → Bool
  | [letter, mark] => letter.isAlpha && (mark == ':' || mark == '|')
  | _ => false

def isPlainDriveLetter (segment : List Char) : Bool :=
  isDriveLetter segment && segment.getLast? == some ':'

/-- A path while it is read. -/
structure PathState where
  /-- The segments that are complete, last first. -/
  done : List (List Char)
  /-- Whether the next segment may be the drive of a file. -/
  mayBeDrive : Bool
  /-- Whether a drive was read. -/
  sawDrive : Bool := false

/-- Takes the last segment away; the start of the path and a drive stay. -/
def PathState.up (s : PathState) : PathState :=
  match s.done with
  | [] => s
  | last :: rest => if isDriveLetter last then s else { s with done := rest }

/-- Adds a segment, which may be the drive of a file. -/
def PathState.push (s : PathState) (segment : List Char) : PathState :=
  if s.mayBeDrive && s.done.isEmpty && isDriveLetter segment then
    { s with done := [segment.take 1 ++ [':']], sawDrive := true }
  else { s with done := segment :: s.done }

/-- Adds a segment that a slash follows. -/
def PathState.directory (s : PathState) (segment : List Char) : PathState :=
  if isDoubleDot segment then s.up
  else if isDot segment then s
  else s.push segment

/-- Adds the last segment. -/
def PathState.finish (s : PathState) (segment : List Char) : PathState :=
  if isDoubleDot segment then s.up.push []
  else if isDot segment then s.push []
  else s.push segment

/-- Reads segments up to the end of the path. `segment` is what has been read of the current one,
last character first. -/
def readSegments (kind : SchemeKind) (s : PathState) (segment : List Char) :
    List Char → PathState × List Char
  | [] => (s.finish segment.reverse, [])
  | c :: rest =>
    if endsPath c then (s.finish segment.reverse, c :: rest)
    else if isSlash kind c then readSegments kind (s.directory segment.reverse) [] rest
    else
      let encoded := (percentEncode inPathSet [c]).reverse
      if kind == .file && s.done.isEmpty && isPlainDriveLetter segment.reverse then
        readSegments kind (s.push segment.reverse) encoded rest
      else readSegments kind s (encoded ++ segment) rest

/-- Drops empty segments in front, except the last segment of all. -/
def dropEmptyFront : List (List Char) → List (List Char)
  | [] :: next :: rest => dropEmptyFront (next :: rest)
  | segments => segments

/-- The segments of a path that was read. In addresses of files slashes at the front count as
one. -/
def PathState.segments (kind : SchemeKind) (s : PathState) : List (List Char) :=
  if kind == .file then dropEmptyFront s.done.reverse else s.done.reverse

/-- A path that begins below the segments `base`, last first: the segments, whether a drive was
read, and the rest. -/
def readPathBelow (kind : SchemeKind) (base : List (List Char)) (cs : List Char) :
    List (List Char) × Bool × List Char :=
  let (s, rest) := readSegments kind ⟨base, kind == .file, false⟩ [] cs
  (s.segments kind, s.sawDrive, rest)

/-- The path behind a host. It always begins with a slash, which may be missing in the text. -/
def readPathBehindHost (kind : SchemeKind) (cs : List Char) :
    List (List Char) × Bool × List Char :=
  match cs with
  | [] => if kind == .other then ([], false, []) else ([[]], false, [])
  | c :: rest =>
    if isSlash kind c then readPathBelow kind [] rest
    else if kind == .other && endsPath c then ([], false, c :: rest)
    else readPathBelow kind [] (c :: rest)

end PagePreview.Url
