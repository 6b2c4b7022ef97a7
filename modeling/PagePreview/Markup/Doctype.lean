import PagePreview.Text.Blank
import PagePreview.Text.Search

/-!
# The document type declaration

`Doctype.ofDeclaration?` reads a declaration `<!doctype …>`, the closing
angle bracket included or not; `Doctype.chars` writes one. Keywords and
letters may be written in either case and identifiers in either kind of
quote. What is empty counts as absent.
-/

namespace PagePreview.Markup

open Text

structure Doctype where
  name : String
  publicId : Option String := none
  systemId : Option String := none
deriving DecidableEq, Repr

/-- The first text in quotes, and what follows its closing quote. -/
def quoted? (cs : List Char) : Option (List Char × List Char) :=
  match cs.dropWhile (fun c => c != '"' && c != '\'') with
  | [] => none
  | quote :: rest =>
    match rest.dropWhile (· != quote) with
    | [] => none
    | _ :: after => some (rest.takeWhile (· != quote), after)

namespace Doctype

/-- An identifier, if there is one that is not empty. -/
def identifier? (cs : List Char) : Option String :=
  match quoted? cs with
  | some (c :: id, _) => some (String.ofList (c :: id))
  | _ => none

/-- The second identifier of two. -/
def secondIdentifier? (cs : List Char) : Option String :=
  quoted? cs >>= fun (_, after) => identifier? after

/-- Whether a declaration is one of the document type. -/
def isDeclaration (cs : List Char) : Bool := startsWithNoCase "<!doctype".toList cs

/-- Reads what stands between the keyword and the end of the declaration. -/
def ofBody (body : List Char) : Doctype :=
  let inner := trimChars (dropEndWhile (· == '>') body)
  let (name, rest) := breakWhere isAsciiBlank inner
  let rest := trimChars (rest.drop 1)
  let name := String.ofList (lowerChars name)
  if startsWithNoCase "public".toList rest then
    let ids := rest.drop 6
    ⟨name, identifier? ids, secondIdentifier? ids⟩
  else if startsWithNoCase "system".toList rest then
    ⟨name, none, identifier? (rest.drop 6)⟩
  else ⟨name, none, none⟩

/-- Reads a declaration if it is one of the document type. -/
def ofDeclaration? (cs : List Char) : Option Doctype :=
  if isDeclaration cs then some (ofBody (cs.drop 9)) else none

/-- The declaration as it is written at the start of a page, without its line end. -/
def chars (d : Doctype) : List Char :=
  "<!DOCTYPE ".toList ++ d.name.toList ++
    (match d.publicId with
      | some id => " PUBLIC \"".toList ++ id.toList ++ ['"']
      | none => []) ++
    (match d.systemId with
      | some id => " \"".toList ++ id.toList ++ ['"']
      | none => []) ++
    ['>']

end Doctype

end PagePreview.Markup
