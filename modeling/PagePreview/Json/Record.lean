import PagePreview.Json.Reader

/-!
# Reading records

A record has named fields, each at most once and in any order. It may also be
written as an array that holds the fields in their own order. What a field
adds to the record is up to the `Field`.
-/

namespace PagePreview.Json

/-- A field of a record that is built up as an `α`: its value is read and put into the record. -/
structure Field (α : Type) where
  name : String
  read : α → Reader α

namespace Field

/-- A field of which nothing is known but its value, and that may be `null`. -/
def ofOptional {α β : Type} (name : String) (value : Reader β) (put : α → Option β → α) :
    Field α where
  name
  read a := do return put a (← optional value)

end Field

namespace Reader

/-- Fails at the end of an array or object that is not read further: `close` ends it if it is
next. -/
def failAfter {α : Type} (close : Char) (cause : Cause) : Reader α := do
  if (← peekPastBlanks) == some close then skip
  fail cause

/-- Reads the fields of an object; `steps` bounds their number. -/
def namedFields {α : Type} (known : List (Field α)) :
    (steps : Nat) → (seen : List String) → α → Reader α
  | 0, _, a => return a
  | steps + 1, seen, a => do
    if ← hasField seen.isEmpty then
      let key ← quotedString
      match known.find? (·.name == key) with
      | none => failAfter '\x7d' (.unknownField key (known.map (·.name)))
      | some field =>
        if seen.contains key then failAfter '\x7d' (.duplicateField key)
        else
          colon
          let a ← field.read a
          namedFields known steps (key :: seen) a
    else return a

/-- Reads the fields of an array, in their order; `wanted` is the text for one that is too
short. -/
def listedFields {α : Type} (wanted : String) : (count : Nat) → List (Field α) → α → Reader α
  | _, [], a => return a
  | count, field :: rest, a => do
    if ← hasItem (count == 0) then
      let a ← field.read a
      listedFields wanted (count + 1) rest a
    else failAfter ']' (.wrongLength count wanted)

/-- Reads a record of the kind that error texts call `wanted`. -/
def record {α : Type} (wanted : String) (known : List (Field α)) (start : α) : Reader α := do
  match ← peekPastBlanks with
  | none => failAhead .endInValue
  | some '\x7b' =>
    skip
    let a ← namedFields known (← bound) [] start
    endObject
    return a
  | some '[' =>
    skip
    let length := String.ofList (Decimal.natDigits known.length)
    let a ← listedFields (wanted ++ " with " ++ length ++ " elements") 0 known start
    endArray
    return a
  | some _ => wrongType wanted

end Reader

end PagePreview.Json
