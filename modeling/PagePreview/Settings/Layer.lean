import PagePreview.Import.Library
import PagePreview.Json.Record
import PagePreview.Script.Pipeline
import PagePreview.Text.Blank
import PagePreview.Text.Search

/-!
# Settings

There are four sources of settings: the command line, the variables of the
environment, a file, and the defaults. Each of the first three is a `Layer`,
which says something about some settings and nothing about the others. Layers
lie over each other, and for each setting the uppermost layer that says
something about it decides.
-/

namespace PagePreview

/-- Everything that can be set. -/
structure Settings where
  /-- The origin that packages are imported from. -/
  cdnOrigin : String := Import.defaultOrigin
  uiPackage : String := "react"
  uiGlobal : String := "React"
  shareBaseUrl : String := "http://127.0.0.1:4173/"
  shortenerUrl : String := "https://shorta.link"
  host : String := "127.0.0.1"
  port : UInt16 := 4173
  verbose : Bool := false
deriving DecidableEq, Repr

namespace Settings

/-- What one source says about the settings. -/
structure Layer where
  cdnOrigin : Option String := none
  uiPackage : Option String := none
  uiGlobal : Option String := none
  shareBaseUrl : Option String := none
  shortenerUrl : Option String := none
  host : Option String := none
  port : Option UInt16 := none
  verbose : Option Bool := none
deriving DecidableEq, Repr

/-- What two layers say together, where the first lies over the second. -/
def Layer.over (upper lower : Layer) : Layer where
  cdnOrigin := upper.cdnOrigin.or lower.cdnOrigin
  uiPackage := upper.uiPackage.or lower.uiPackage
  uiGlobal := upper.uiGlobal.or lower.uiGlobal
  shareBaseUrl := upper.shareBaseUrl.or lower.shareBaseUrl
  shortenerUrl := upper.shortenerUrl.or lower.shortenerUrl
  host := upper.host.or lower.host
  port := upper.port.or lower.port
  verbose := upper.verbose.or lower.verbose

/-- The settings that a layer leaves when it lies over the defaults. -/
def ofLayer (l : Layer) : Settings :=
  let defaults : Settings := {}
  { cdnOrigin := l.cdnOrigin.getD defaults.cdnOrigin
    uiPackage := l.uiPackage.getD defaults.uiPackage
    uiGlobal := l.uiGlobal.getD defaults.uiGlobal
    shareBaseUrl := l.shareBaseUrl.getD defaults.shareBaseUrl
    shortenerUrl := l.shortenerUrl.getD defaults.shortenerUrl
    host := l.host.getD defaults.host
    port := l.port.getD defaults.port
    verbose := l.verbose.getD defaults.verbose }

/-- The settings of several layers, the uppermost first. -/
def ofLayers (layers : List Layer) : Settings := ofLayer (layers.foldr Layer.over {})

/-- What scripts are compiled for under these settings. -/
def target (s : Settings) : Except Import.OriginFault Script.Target :=
  (Import.Origin.parse s.cdnOrigin).map fun origin =>
    { origin, library := { package := s.uiPackage, global := s.uiGlobal } }

/-- A port is a number of 16 bits in decimal digits, which may follow a plus sign. -/
def portNumber? (cs : List Char) : Option UInt16 :=
  let digits := (Text.dropFront? ['+'] cs).getD cs
  let n := digits.foldl (fun n d => 10 * n + (d.toNat - '0'.toNat)) 0
  if digits.isEmpty || !digits.all Char.isDigit || UInt16.size ≤ n then none
  else some (UInt16.ofNat n)

/-- The words for yes and no, in letters of either case. -/
def flag? (s : String) : Option Bool :=
  match Text.lower s with
  | "1" | "true" | "yes" | "on" => some true
  | "0" | "false" | "no" | "off" => some false
  | _ => none

/-- The variables that say something about the settings. -/
def variableNames : List String := [
  "LIVEPAD_CDN_ORIGIN", "LIVEPAD_UI_PACKAGE", "LIVEPAD_UI_GLOBAL", "LIVEPAD_SHARE_BASE_URL",
  "LIVEPAD_SHORTENER_URL", "LIVEPAD_HOST", "LIVEPAD_PORT", "LIVEPAD_VERBOSE"]

/-- What a program is told about its surroundings by variables is a layer. Texts that are blank
and values that cannot be read say nothing. -/
def Layer.ofVariables (lookup : String → Option String) : Layer where
  cdnOrigin := text "LIVEPAD_CDN_ORIGIN"
  uiPackage := text "LIVEPAD_UI_PACKAGE"
  uiGlobal := text "LIVEPAD_UI_GLOBAL"
  shareBaseUrl := text "LIVEPAD_SHARE_BASE_URL"
  shortenerUrl := text "LIVEPAD_SHORTENER_URL"
  host := text "LIVEPAD_HOST"
  port := (lookup "LIVEPAD_PORT").bind fun v => portNumber? (Text.trimChars v.toList)
  verbose := (lookup "LIVEPAD_VERBOSE").bind fun v => flag? (Text.trim v)
where
  text (name : String) : Option String :=
    (lookup name).filter fun v => !(Text.trimChars v.toList).isEmpty

/-! ## The settings file

The file holds a record in JSON with one field for each setting, named like
the setting in lower-case words with underscores between them. A field that is
missing or `null` says nothing. Unknown fields are refused, so that a misspelt
name does not go unnoticed.
-/

open Json.Reader (record)

/-- The name of the file that is read when none is named. -/
def fileName : String := "livepad.json"

namespace Layer

/-- The fields of the file in their order. -/
def fields : List (Json.Field Layer) := [
  .ofOptional "cdn_origin" Json.text fun l v => { l with cdnOrigin := v },
  .ofOptional "ui_package" Json.text fun l v => { l with uiPackage := v },
  .ofOptional "ui_global" Json.text fun l v => { l with uiGlobal := v },
  .ofOptional "share_base_url" Json.text fun l v => { l with shareBaseUrl := v },
  .ofOptional "shortener_url" Json.text fun l v => { l with shortenerUrl := v },
  .ofOptional "host" Json.text fun l v => { l with host := v },
  .ofOptional "port" (Json.naturalUpTo (UInt16.size - 1) "u16")
    fun l v => { l with port := v.map UInt16.ofNat },
  .ofOptional "verbose" Json.flag fun l v => { l with verbose := v }]

/-- Reads the text of a settings file. -/
def ofFile (text : String) : Except Json.Fault Layer :=
  Json.readWhole (record "struct FileConfig" fields {}) text

end Layer

end Settings

end PagePreview
