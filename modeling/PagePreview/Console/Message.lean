import PagePreview.Console.Bootstrap
import PagePreview.Json.Fault
import PagePreview.Json.Printer

/-!
# Console messages

What a page logs arrives as JSON: a record with a method and data, or a list
whose first item is such a record. `Message.decode` reads both. Messages are
shown as lines of text, in which the values that JSON cannot carry appear by
their descriptions.
-/

namespace PagePreview.Console

structure Message where
  method : String
  data : List Json
  timestamp : String := ""

/-- What a payload is instead of a record. -/
inductive Shape where
  | null
  | scalar
  /-- A list whose first item is no record. -/
  | strangeEntry
deriving DecidableEq, Repr

/-- Why a payload is no message. -/
inductive MessageFault where
  | emptyEvent
  | missingMethod
  | unsupported (shape : Shape)
deriving DecidableEq, Repr

def Shape.text : Shape → String
  | null => "null"
  | scalar => "scalar"
  | strangeEntry => "log entry is not an object"

def MessageFault.message : MessageFault → String
  | emptyEvent => "log event carries no entries"
  | missingMethod => "message has no string `method` field"
  | unsupported shape => "unsupported message shape: " ++ shape.text

namespace Message

/-- The echo of a line that was submitted at the prompt. -/
def command (line : String) : Message := { method := "command", data := [.string line] }

/-! ## Reading -/

/-- The data of a record: a list as it is, anything else as its only item. -/
def recordData : Option Json → List Json
  | none | some .null => []
  | some (.array items) => items
  | some value => [value]

def ofRecord (record : Json) : Except MessageFault Message :=
  match record.field? "method" with
  | some (.string method) => .ok { method, data := recordData (record.field? "data") }
  | _ => .error .missingMethod

/-- Reads what a page has sent. The message has no time. -/
def decode : Json → Except MessageFault Message
  | .array [] => .error .emptyEvent
  | .array (.object fields :: _) => ofRecord (.object fields)
  | .array _ => .error (.unsupported .strangeEntry)
  | .object fields => ofRecord (.object fields)
  | .null => .error (.unsupported .null)
  | _ => .error (.unsupported .scalar)

/-! ## Showing -/

def joined (between : String) : List String → String
  | [] => ""
  | [s] => s
  | s :: ss => s ++ between ++ joined between ss

/-- The description of a value with a tag. -/
def describe (tag : String) (inner : String) : String :=
  match tag with
  | "undefined" => "undefined"
  | "function" => "[Function " ++ inner ++ "]"
  | "circular" => "[Circular]"
  | "bigint" => inner ++ "n"
  | _ => inner

/-- The tag of an object that stands for another value. -/
def tagOf? (fields : List (String × Json)) : Option String :=
  (fields.lookup typeTag).bind Json.string?

mutual

/-- A value within another one. -/
def renderNested : Json → String
  | .object fields =>
    match tagOf? fields with
    | some tag => describe tag (((fields.lookup "v").bind Json.string?).getD "")
    | none =>
      match fields with
      | [] => "\x7b\x7d"
      | f :: fs => "\x7b " ++ joined ", " (renderField f :: renderFields fs) ++ " \x7d"
  | .array items => "[" ++ joined ", " (renderItems items) ++ "]"
  | value => value.compact

def renderItems : List Json → List String
  | [] => []
  | item :: rest => renderNested item :: renderItems rest

def renderField : String × Json → String
  | (key, value) => key ++ ": " ++ renderNested value

def renderFields : List (String × Json) → List String
  | [] => []
  | field :: rest => renderField field :: renderFields rest

end

/-- A value as a console shows it: a text as it is. -/
def renderValue : Json → String
  | .string s => s
  | value => renderNested value

/-- A message as one line. The method is shown unless it is that of plain logging. -/
def line (m : Message) : String :=
  let body := joined " " (m.data.map renderValue)
  match m.method with
  | "command" => "> " ++ body
  | "log" | "info" | "debug" => body
  | method => "[" ++ method ++ "] " ++ body

/-! ## Messages as JSON -/

def toJson (m : Message) : Json :=
  Json.ofFields [("method", .string m.method), ("data", .array m.data),
    ("timestamp", .string m.timestamp)]

/-- What a value is, for an error text. -/
def found : Json → Json.Found
  | .null => .null
  | .bool b => .bool b
  | .int i => .int i
  | .float x => .float x
  | .string s => .string s
  | .array _ => .sequence
  | .object _ => .map

def textOf : Json → Except Json.Cause String
  | .string s => .ok s
  | v => .error (.wrongType (found v) "a string")

def listOf : Json → Except Json.Cause (List Json)
  | .array items => .ok items
  | v => .error (.wrongType (found v) "a sequence")

/-- The parts of a message that have been read from the fields of an object. -/
structure Parts where
  method : Option String := none
  data : Option (List Json) := none
  timestamp : Option String := none

def readField (p : Parts) (field : String × Json) : Except Json.Cause Parts :=
  match field with
  | ("method", v) => (textOf v).map fun s => { p with method := some s }
  | ("data", v) => (listOf v).map fun items => { p with data := some items }
  | ("timestamp", v) => (textOf v).map fun s => { p with timestamp := some s }
  | _ => .ok p

/-- Reads a message from its JSON form: an object, or its parts in order. -/
def ofJson : Json → Except Json.Cause Message
  | .object fields => do
    let p ← fields.foldlM readField {}
    match p.method, p.data with
    | some method, some data => return { method, data, timestamp := p.timestamp.getD "" }
    | none, _ => throw (.missingField "method")
    | _, none => throw (.missingField "data")
  | .array [] => .error (.wrongLength 0 "struct ConsoleMessage with 3 elements")
  | .array [m] => do
    let _ ← textOf m
    throw (.wrongLength 1 "struct ConsoleMessage with 3 elements")
  | .array [m, d] => do
    let method ← textOf m
    return { method, data := ← listOf d }
  | .array (m :: d :: t :: rest) => do
    let method ← textOf m
    let data ← listOf d
    let timestamp ← textOf t
    if rest.isEmpty then return { method, data, timestamp }
    else throw (.wrongLength (rest.length + 3) "fewer elements in array")
  | v => .error (.wrongType (found v) "struct ConsoleMessage")

end Message

end PagePreview.Console
