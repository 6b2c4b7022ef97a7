import PagePreview.Text.Base64
import PagePreview.Text.Blank
import PagePreview.Text.Utf8

/-!
# Pages in the fragment of a link

The fragment holds the page itself: its text as UTF-8 in base64. Blanks
around it do not count.
-/

namespace PagePreview.Page

open Text

/-- Why a fragment holds no page. -/
inductive FragmentFault where
  | base64 (fault : Base64.Fault)
  | utf8 (fault : Utf8.Fault)
deriving DecidableEq, Repr

def FragmentFault.message : FragmentFault → String
  | .base64 fault => "fragment is not valid base64: " ++ fault.message
  | .utf8 fault => "fragment does not decode to UTF-8 text: " ++ fault.message

/-- Bytes as the characters with these numbers. -/
def asciiChars (bs : List UInt8) : List Char := bs.map fun b => Char.ofNat b.toNat

/-- The fragment that holds a page. -/
def encodeFragment (source : String) : String :=
  String.ofList (asciiChars (Base64.encode (Utf8.encode source.toList)))

/-- The page that a fragment holds. -/
def decodeFragment (fragment : String) : Except FragmentFault String :=
  match Base64.decode (Utf8.encode (trimChars fragment.toList)) with
  | .error e => .error (.base64 e)
  | .ok bytes =>
    match Utf8.decode? bytes with
    | .error e => .error (.utf8 e)
    | .ok cs => .ok (String.ofList cs)

end PagePreview.Page
