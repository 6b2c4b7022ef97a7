import PagePreview.CommandLine.Shell
import PagePreview.Page.Launch
import PagePreview.Url.Parser

/-!
# Sharing links

The links to a page are long, because they hold the page. A service may offer
a short form; a link for which it does not is shared as it is.
-/

namespace PagePreview.CommandLine

open Page

/-- Why there is no short form of a link. -/
inductive ShortenFault where
  /-- The service has no address. -/
  | endpoint (fault : Url.Fault)
  /-- The address of the service names no host. -/
  | noHost (url : Url)
  | exchange (reason : String)
  | emptyAnswer

def ShortenFault.message (endpoint : String) : ShortenFault → String
  | .endpoint fault => calling ++ "builder error: " ++ fault.message
  | .noHost url =>
    calling ++ "builder error for url (" ++ String.ofList url.chars ++
      "): URL scheme is not allowed"
  | .exchange reason => calling ++ reason
  | .emptyAnswer => "shortener returned an empty response"
where
  calling : String := "failed calling shortener " ++ endpoint ++ ": "

/-- Whether an address names a host. -/
def namesHost (url : Url) : Bool :=
  match url.authority with
  | some a => a.host != .name []
  | none => false

/-- The address of a service. -/
def serviceAddress (endpoint : String) : Except ShortenFault Url :=
  match Url.parse endpoint.toList with
  | .error fault => .error (.endpoint fault)
  | .ok url => if namesHost url then .ok url else .error (.noHost url)

section Actions

variable {m : Type → Type} [Monad m]

/-- The short form of a link. -/
def Shell.shortForm (sh : Shell m) (endpoint link : String) : m (Except ShortenFault String) := do
  match serviceAddress endpoint with
  | .error fault => return .error fault
  | .ok url => match ← sh.shorten url link with
    | .error reason => return .error (.exchange reason)
    | .ok answer =>
      let short := Text.trim answer
      return if short.isEmpty then .error .emptyAnswer else .ok short

/-- The link as it is shared: its short form, or the link itself after a warning. -/
def Shell.sharedLink (sh : Shell m) (endpoint : Option String) (link : String) : m String := do
  match endpoint with
  | none => return link
  | some endpoint => match ← sh.shortForm endpoint link with
    | .ok short => return short
    | .error fault =>
      sh.emit (Console.notedLine
        ("[livepad] warning: could not shorten link: " ++ fault.message endpoint))
      return link

/-- The lines that share a page, without the link to the editor if only the preview is wanted. -/
def Shell.shareLines (sh : Shell m) (links : ShareLinks) (previewOnly : Bool)
    (endpoint : Option String) : m (List String) :=
  ((if previewOnly then [] else [links.view]) ++ [links.preview]).mapM (sh.sharedLink endpoint)

end Actions

end PagePreview.CommandLine
