import PagePreview.Page.Fragment
import PagePreview.Page.Preparation
import PagePreview.Text.Search

/-!
# Links to a page

A page is shared by two links: one opens it in the editor, the other one
shows it. They differ in a mark in front of the encoded page, a character
that base64 does not use.
-/

namespace PagePreview.Page

open Text

/-! ## The page that is shown when there is none to show -/

def defaultLines : List String := [
  "<!DOCTYPE html>",
  "<html lang=\"en\">",
  "<head>",
  "    <meta charset=\"UTF-8\">",
  "    <meta name=\"viewport\" content=\"width=device-width, initial-scale=1.0\">",
  "    <title>Document</title>",
  "</head>",
  "<body>",
  "  <button onclick=\"showConfetti()\">Click me!</button>",
  "</body>",
  "<script type=\"module\">",
  "  import confetti from \"canvas-confetti\";",
  "  globalThis.showConfetti = () => \x7b confetti(); console.log(\"Confetti!\"); \x7d",
  "</script>",
  "</html>"]

/-- The page that is opened when a link brings none. -/
def defaultSource : String := "\n".intercalate defaultLines

/-! ## What a link opens -/

/-- The mark of a link that shows a page without the editor. -/
def previewMark : Char := '~'

/-- What a link opens. -/
inductive Launch where
  | editor (source : String)
  | preview (html : String)
deriving DecidableEq, Repr

namespace Launch

/-- The editor with the page in a fragment, or with the default page if there is none. -/
def openEditor (fragment : String) : Launch :=
  match decodeFragment fragment with
  | .ok source => .editor source
  | .error _ => .editor defaultSource

/-- What a fragment opens; its number sign may be missing. A fragment that holds no page opens
the editor with the default page. -/
def ofFragment (compile : Script.Compiler) (hash : String) : Launch :=
  let hash := hash.toList
  let cs := (dropFront? ['#'] hash).getD hash
  match cs with
  | [] => .editor defaultSource
  | c :: rest =>
    if c == previewMark then
      match decodeFragment (String.ofList rest) with
      | .ok source => .preview (prepare compile source).html
      | .error _ => .editor defaultSource
    else openEditor (String.ofList cs)

end Launch

structure ShareLinks where
  view : String
  preview : String
deriving DecidableEq, Repr

/-- An address without its fragment. -/
def withoutFragment (url : List Char) : List Char := url.takeWhile (· != '#')

/-- The links to a page below an address. -/
def ShareLinks.make (base source : String) : ShareLinks :=
  let base := withoutFragment base.toList
  let encoded := (encodeFragment source).toList
  ⟨String.ofList (base ++ '#' :: encoded),
    String.ofList (base ++ '#' :: previewMark :: encoded)⟩

/-- The part of a link behind its first number sign; a text without one is a fragment itself. -/
def fragmentOf (link : String) : String :=
  match link.toList.dropWhile (· != '#') with
  | [] => link
  | _ :: fragment => String.ofList fragment

end PagePreview.Page
