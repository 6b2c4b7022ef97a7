import PagePreview.Decimal.Notation
import PagePreview.Page.Preparation
import PagePreview.Text.Blank
import PagePreview.Text.Search
import PagePreview.Text.Utf8

/-!
# The preview server

The server shows one page: the page prepared for running at `/` and at
`/index.html`, and its source at `/source`. Only the first line of a request
counts. `respond` is the whole of what a request comes to, given what the page
file holds at that time; a HEAD request is answered like a GET request, but
without the body.
-/

namespace PagePreview.Server

open Text
open Script (Compiler)

/-! ## Where the preview server is found -/

/-- The address of the page that is served on a port. -/
def pageAddress (host : String) (port : UInt16) : String :=
  "http://" ++ host ++ ":" ++ String.ofList (Decimal.natDigits port.toNat) ++ "/"

/-! ## Requests and what they come to -/

/-- As many bytes of a request are read, and no more. -/
def requestLimit : Nat := 16384

/-- What a request is about. -/
structure Request where
  method : List Char
  target : List Char
deriving DecidableEq, Repr

/-- The method and the target are the first two words of the first line; there may be fewer. -/
def Request.ofText (text : List Char) : Request :=
  let words := (splitWhere isBlank (text.takeWhile (· != '\n'))).filter (!·.isEmpty)
  ⟨words.getD 0 [], words.getD 1 ['/']⟩

/-- Reads a request from bytes, unless there are none. -/
def Request.ofBytes? (bytes : List UInt8) : Option Request :=
  if bytes.isEmpty then none
  else some (.ofText (Utf8.decodeLossy (bytes.take requestLimit)))

inductive Method where
  | get
  | head
deriving DecidableEq, Repr

/-- Methods are written in letters of either case. -/
def Method.of? (name : List Char) : Option Method :=
  let name := lowerChars name
  if name == "get".toList then some .get else if name == "head".toList then some .head else none

inductive Route where
  | page
  | source
deriving DecidableEq, Repr

/-- What is found at a target; its query and its fragment do not matter. -/
def Route.of? (target : List Char) : Option Route :=
  match String.ofList (target.takeWhile fun c => c != '?' && c != '#') with
  | "/" | "/index.html" => some .page
  | "/source" => some .source
  | _ => none

inductive Status where
  | ok
  | notFound
  | methodNotAllowed
  | internalError
deriving DecidableEq, Repr

def Status.text : Status → String
  | .ok => "200 OK"
  | .notFound => "404 Not Found"
  | .methodNotAllowed => "405 Method Not Allowed"
  | .internalError => "500 Internal Server Error"

structure Response where
  status : Status
  isHtml : Bool := false
  body : List Char
deriving DecidableEq, Repr

/-- The lines in front of the body, up to and with the empty one. -/
def Response.head (r : Response) : List Char :=
  ("HTTP/1.1 " ++ r.status.text ++ "\r\nContent-Type: text/" ++
    (if r.isHtml then "html" else "plain") ++ "; charset=utf-8\r\nContent-Length: ").toList ++
  Decimal.natDigits (Utf8.size r.body) ++
  "\r\nCache-Control: no-store\r\nConnection: close\r\n\r\n".toList

/-- What is sent. -/
def Response.chars (r : Response) : Method → List Char
  | .get => r.head ++ r.body
  | .head => r.head

/-- What there is at a target. The page is given as its text, or as the reason why it cannot be
read. -/
def answer (compile : Compiler) (page : Except String String) (target : List Char) : Response :=
  match Route.of? target with
  | none => { status := .notFound, body := "Not Found".toList }
  | some route =>
    match page, route with
    | .error reason, _ => { status := .internalError, body := reason.toList }
    | .ok source, .page =>
      { status := .ok, isHtml := true, body := (Page.prepare compile source).html.toList }
    | .ok source, .source => { status := .ok, body := source.toList }

/-- What a request comes to. Nothing is sent if there is no request. -/
def respond (compile : Compiler) (page : Except String String) (bytes : List UInt8) : List Char :=
  match Request.ofBytes? bytes with
  | none => []
  | some request =>
    match Method.of? request.method with
    | none =>
      Response.chars { status := .methodNotAllowed, body := "Method Not Allowed".toList } .get
    | some method => (answer compile page request.target).chars method

end PagePreview.Server
