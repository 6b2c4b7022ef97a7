import PagePreview.Text.Search
import PagePreview.Text.Utf8

/-!
# File trees

A `Tree` is what lies below one directory. A place in it is the list of the
names that lead there, from the outermost on. Paths are relative to the
directory the tree lies in. They go from name to name, and every name but the
last has to be that of a directory. A path that leaves the tree leads to
nothing.
-/

namespace PagePreview.Files

/-! ## Paths

A path is a text of names with slashes between them. Slashes at its end, and
names that are a single full stop, make no difference, except that a full stop
may be all there is.
-/

/-- Drops slashes, and names that are a full stop, from the front of a path that is written
backwards. -/
def dropIdle : List Char → List Char
  | '/' :: r => dropIdle r
  | '.' :: '/' :: r => dropIdle r
  | r => r

/-- The path of the directory that something lies in. It is empty where nothing is said about
the directory. The root and the empty path lie in none. -/
def parent? (path : String) : Option String :=
  let (root, names) := match path.toList with
    | '/' :: cs => (['/'], cs)
    | cs => ([], cs)
  match dropIdle names.reverse with
  | [] => none
  | last => some (String.ofList (root ++ (dropIdle (last.dropWhile (· != '/'))).reverse))

/-- The path of what has a name in a directory. -/
def inside (directory name : String) : String :=
  if directory.isEmpty || directory.toList.getLast? == some '/' then directory ++ name
  else directory ++ "/" ++ name

/-! ## What can go wrong with files -/

/-- Why something could not be done with a file. -/
inductive Fault where
  | missing
  | occupied
  | notDirectory
  | isDirectory
  | nameTooLong
  /-- A path cannot hold the character with the code zero. -/
  | nulInPath
  /-- The content is no UTF-8 text. -/
  | notText
  | other (reason : String)
deriving DecidableEq, Repr

def Fault.message : Fault → String
  | .missing => "No such file or directory (os error 2)"
  | .occupied => "File exists (os error 17)"
  | .notDirectory => "Not a directory (os error 20)"
  | .isDirectory => "Is a directory (os error 21)"
  | .nameTooLong => "File name too long (os error 36)"
  | .nulInPath => "file name contained an unexpected NUL byte"
  | .notText => "stream did not contain valid UTF-8"
  | .other reason => reason

/-- What a path leads to. -/
inductive Kind where
  | file
  | directory
deriving DecidableEq, Repr

/-! ## Trees -/

/-- The names on the way from the outermost directory. -/
abbrev Place := List String

inductive Entry where
  | file (content : List UInt8)
  | directory
deriving DecidableEq, Repr

def Entry.kind : Entry → Kind
  | .file _ => .file
  | .directory => .directory

/-- What lies at which place. The outermost directory is not listed. -/
structure Tree where
  entries : List (Place × Entry) := []

namespace Tree

/-- What lies at a place. -/
def at? (t : Tree) (place : Place) : Option Entry :=
  if place.isEmpty then some .directory else t.entries.lookup place

/-- Lays something at a place, instead of what has been there. -/
def lay (t : Tree) (place : Place) (entry : Entry) : Tree :=
  if (t.entries.lookup place).isSome then
    ⟨t.entries.map fun e => if e.1 == place then (place, entry) else e⟩
  else ⟨t.entries ++ [(place, entry)]⟩

/-- Takes away what lies at a place. -/
def remove (t : Tree) (place : Place) : Tree := ⟨t.entries.filter (·.1 != place)⟩

/-- The longest name that a file may have, in bytes. -/
def maxNameSize : Nat := 255

/-- The names in a path. -/
def names (path : String) : List String :=
  (Text.splitWhere (· == '/') path.toList).map String.ofList

/-- Where a path ends that goes on with `names` from a directory, and whether it has to be a
directory there. -/
def walk (t : Tree) (dir : Place) : (names : List String) → Except Fault (Place × Bool)
  | [] => .ok (dir, true)
  | name :: rest =>
    if name == "" || name == "." then t.walk dir rest
    else if name == ".." then
      if dir.isEmpty then .error .missing else t.walk dir.dropLast rest
    else if maxNameSize < name.utf8ByteSize then .error .nameTooLong
    else
      let place := dir ++ [name]
      match rest, t.at? place with
      | [], _ => .ok (place, false)
      | _, some .directory => t.walk place rest
      | _, some (.file _) =>
        if rest.all (· == "") then .ok (place, true) else .error .notDirectory
      | _, none => if rest.all (· == "") then .ok (place, true) else .error .missing

/-- Where a path leads, and whether it has to be a directory there. -/
def find (t : Tree) (path : String) : Except Fault (Place × Bool) :=
  if path.contains '\x00' then .error .nulInPath
  else if path.isEmpty || path.startsWith "/" then .error .missing
  else t.walk [] (names path)

/-- What a path leads to. -/
def kind? (t : Tree) (path : String) : Option Kind :=
  match t.find path with
  | .error _ => none
  | .ok (place, closed) =>
    match t.at? place with
    | some (.file _) => if closed then none else some .file
    | some .directory => some .directory
    | none => none

/-- The content of a file. -/
def read (t : Tree) (path : String) : Except Fault (List UInt8) := do
  let (place, closed) ← t.find path
  match t.at? place with
  | none => .error .missing
  | some .directory => .error .isDirectory
  | some (.file content) => if closed then .error .notDirectory else .ok content

/-- Replaces the content of a file, which need not exist. -/
def write (t : Tree) (path : String) (content : List UInt8) : Except Fault Tree := do
  let (place, closed) ← t.find path
  match closed, t.at? place with
  | true, _ | _, some .directory => .error .isDirectory
  | _, _ => .ok (t.lay place (.file content))

/-- Makes a directory where there is nothing. -/
def makeDirectory (t : Tree) (path : String) : Except Fault Tree := do
  let (place, _) ← t.find path
  match t.at? place with
  | some _ => .error .occupied
  | none => .ok (t.lay place .directory)

/-- Lays something at the place that a path names, and directories on the way where there is
nothing yet. -/
def add (t : Tree) (path : String) (entry : Entry) : Tree :=
  let place := (names path).filter (· != "")
  let t := (List.range place.length).foldl (fun t n =>
    if (t.at? (place.take n)).isSome then t else t.lay (place.take n) .directory) t
  t.lay place entry

/-- The files of a tree, with their paths. -/
def files (t : Tree) : List (String × List UInt8) :=
  t.entries.filterMap fun (place, entry) =>
    match entry with
    | .file content => some ("/".intercalate place, content)
    | .directory => none

end Tree

end PagePreview.Files
