import PagePreview.Text.Blank
import PagePreview.Text.Search
import PagePreview.Url.Parser

/-!
# The origin that packages are imported from

`classify` says of a module specifier whether it names a package. An `Origin`
is the address of a directory: it has no query and no fragment and its path
ends with one slash. Packages are addressed relative to it, so `resolve` turns
the name of a package into an address and leaves paths and addresses alone.
-/

namespace PagePreview.Import

open Text

/-! ## Module specifiers

The text in an import says where a module is. A path or an address says it
by itself; every other text is the name of a package.
-/

inductive SpecifierClass where
  | relative
  | absoluteUrl
  | bare
deriving DecidableEq, Repr

/-- Marks a package name. What follows would otherwise be taken for a scheme. -/
def packageMark : List Char := "npm:".toList

/-- The class of a specifier: a package if it is marked as one, a path if a slash follows its
leading full stops, and an address if it can be read as one. -/
def classify (specifier : List Char) : SpecifierClass :=
  if startsWith packageMark specifier then .bare
  else if (specifier.dropWhile (· == '.')).head? == some '/' then .relative
  else match Url.parse specifier with
    | .ok _ => .absoluteUrl
    | .error _ => .bare

/-! ## Origins -/

/-- The origin that is used when none is given. -/
def defaultOrigin : String := "https://esm.sh"

/-- Why a text is no origin. -/
inductive OriginFault where
  | url (fault : Url.Fault)
  /-- Nothing can be addressed relative to it. -/
  | notHierarchical
deriving DecidableEq, Repr

def OriginFault.reason : OriginFault → String
  | .url fault => fault.message
  | .notHierarchical => "URL cannot be used as a base"

/-- The error text for an origin. -/
def OriginFault.message (input : String) (fault : OriginFault) : String :=
  "invalid CDN origin `" ++ input ++ "`: " ++ fault.reason

structure Origin where
  base : Url

namespace Origin

/-- The path without slashes at its end and with one slash there. -/
def directoryPath (path : List Char) : List Char := dropEndWhile (· == '/') path ++ ['/']

/-- Reads an origin; blanks around it do not count. -/
def parse (input : String) : Except OriginFault Origin :=
  match Url.parse (trimChars input.toList) with
  | .error e => .error (.url e)
  | .ok u =>
    match u.path with
    | .plain _ => .error .notHierarchical
    | .segments _ =>
      let (segments, _, _) := Url.readPathBehindHost u.kind (directoryPath u.path.chars)
      .ok ⟨{ u with path := .segments segments, query := none, fragment := none }⟩

def toString (o : Origin) : String := String.ofList o.base.chars

/-- The address of something below the origin. What cannot be an address is put behind it as it
is. -/
def join (o : Origin) (relative : List Char) : List Char :=
  match o.base.join relative with
  | .ok u => u.chars
  | .error _ => o.base.chars ++ relative

/-- The address that a specifier is replaced by, if it is that of a package. -/
def resolveChars (o : Origin) (specifier : List Char) : Option (List Char) :=
  match dropFront? packageMark specifier with
  | some rest => some (o.join (rest.dropWhile (· == '/')))
  | none =>
    match classify specifier with
    | .bare => some (o.join specifier)
    | .relative => none
    | .absoluteUrl => none

/-- The address that a specifier is replaced by, if it is that of a package. -/
def resolve (o : Origin) (specifier : String) : Option String :=
  (o.resolveChars specifier.toList).map String.ofList

end Origin

end PagePreview.Import
