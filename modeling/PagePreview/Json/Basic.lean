/-!
# JSON values

Integers and floating point numbers are kept apart, because they are
written differently: `1` is not `1.0`. An object is a list of fields in
ascending order of the keys, each key once; `ofFields` builds one from
fields in any order.
-/

namespace PagePreview

inductive Json where
  | null
  | bool (value : Bool)
  | int (value : Int)
  | float (value : Float)
  | string (value : String)
  | array (items : List Json)
  | object (fields : List (String × Json))

namespace Json

/-- Sets a field, keeping the keys in ascending order. -/
def putField {α : Type} (key : String) (value : α) : List (String × α) → List (String × α)
  | [] => [(key, value)]
  | (k, v) :: rest =>
    if key < k then (key, value) :: (k, v) :: rest
    else if key == k then (key, value) :: rest
    else (k, v) :: putField key value rest

/-- The object with the given fields; of several with one key the last counts. -/
def ofFields (fields : List (String × Json)) : Json :=
  .object (fields.foldl (fun acc (k, v) => putField k v acc) [])

def field? (key : String) : Json → Option Json
  | .object fields => fields.lookup key
  | _ => none

def string? : Json → Option String
  | .string s => some s
  | _ => none

def array? : Json → Option (List Json)
  | .array items => some items
  | _ => none

end Json

end PagePreview
