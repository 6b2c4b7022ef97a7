import PagePreview.Engine.Iteration
import PagePreview.Engine.Library.Basic
import PagePreview.Engine.Matching

/-!
# Patterns of the library

A pattern object holds its text and its flags. Under the flags `g` and `y` it
also remembers where the last match ended.
-/

namespace PagePreview.Engine.Library

open Text

/-- A pattern object that is ready for use. -/
structure Prepared where
  ref : Ref
  read : Matching.Read
  options : Matching.Options
  global : Bool
  sticky : Bool

def patternOptions (flags : String) : Matching.Options :=
  let has (c : Char) : Bool := flags.toList.contains c
  { ignoreCase := has 'i', multiline := has 'm', dotAll := has 's', unicode := has 'u' || has 'v' }

/-- The pattern that a value is, if it is one. -/
def pattern? (v : Value) : Run (Option Prepared) := do
  match v, ← v.body with
  | .object ref, .pattern body flags =>
    let options := patternOptions flags
    match Matching.parse? options body with
    | some read =>
      return some {
        ref, read, options, global := flags.toList.contains 'g'
        sticky := flags.toList.contains 'y' }
    | none => syntaxError "Invalid regular expression literal"
  | _, _ => return none

/-- The numbers of a text that a pattern is looked for in. -/
def subjectUnits (p : Prepared) (s : String) : Array Nat :=
  if p.options.unicode then (s.toList.map Char.toNat).toArray else (Units.ofString s).toArray

/-- The text of some of these numbers. -/
def subjectText (p : Prepared) (units : Array Nat) (low high : Nat) : String :=
  let part := (units.extract low high).toList
  if p.options.unicode then String.ofList (part.map Char.ofNat) else Units.toString part

/-- A place in the numbers as a place in units. -/
def unitPlace (p : Prepared) (units : Array Nat) (place : Nat) : Nat :=
  if p.options.unicode then
    (units.extract 0 place).foldl (fun n c => if c < 0x10000 then n + 1 else n + 2) 0
  else place

abbrev Found := Array (Option (Nat × Nat))

def groupText (p : Prepared) (units : Array Nat) (span : Option (Nat × Nat)) : Value :=
  span.elim .undefined fun (low, high) => .text (subjectText p units low high)

/-- The groups with names, as an object. -/
def groupsValue (p : Prepared) (units : Array Nat) (found : Found) : Run Value := do
  if p.read.names.isEmpty then return .undefined
  let r ← allocate {}
  for (name, n) in p.read.names do
    defineOwn r (.text name) (.ofValue (groupText p units found[n]?.join))
  return .object r

/-- A match as scripts see it. -/
def matchValue (p : Prepared) (s : String) (units : Array Nat) (found : Found) : Run Value := do
  let v ← listOf (found.toList.map (groupText p units))
  match v with
  | .object r =>
    let start := (found[0]?.join).elim 0 (·.1)
    defineOwn r (.text "index") (.ofValue (numberValue (unitPlace p units start)))
    defineOwn r (.text "input") (.ofValue (.text s))
    defineOwn r (.text "groups") (.ofValue (← groupsValue p units found))
  | _ => pure ()
  return v

def setLastIndex (p : Prepared) (n : Nat) : Run Unit :=
  setProperty true p.ref (.text "lastIndex") (numberValue n)

/-- Looks for a pattern from where it has got to. -/
def findNext (p : Prepared) (units : Array Nat) : Run (Option Found) := do
  let remembers := p.global || p.sticky
  let start ← if remembers then toLength (← getNamed p.ref "lastIndex") else pure 0
  match Matching.find? p.read p.options units start p.sticky with
  | some found =>
    if remembers then setLastIndex p ((found[0]?.join).elim 0 (·.2))
    return some found
  | none =>
    if remembers then setLastIndex p 0
    return none

/-- All matches, one behind the other. -/
def findAll (p : Prepared) (units : Array Nat) : List Found :=
  go (units.size + 2) 0
where
  go : (bound place : Nat) → List Found
    | 0, _ => []
    | bound + 1, place =>
      match Matching.find? p.read p.options units place p.sticky with
      | none => []
      | some found =>
        let (low, high) := (found[0]?.join).getD (place, place)
        found :: go bound (if low == high then high + 1 else high)

def execute (c : NativeCall) : Run Value := do
  match ← pattern? c.self with
  | none => typeError "RegExp.prototype.exec called with invalid value"
  | some p =>
    let s ← toText (c.arg 0)
    let units := subjectUnits p s
    match ← findNext p units with
    | some found => matchValue p s units found
    | none => return .null

/-! ## Replacing -/

/-- It stands for what comes before a match. -/
def backtick : Char := Char.ofNat 0x60

/-- A text with its marks replaced by parts of a match. -/
def expandMarks (template : List Char) (whole before after : String) (group : Nat → Option Value)
    (named : String → Option Value) : Run String := do
  let shown : Option Value → Run String
    | none | some .undefined => return ""
    | some v => toText v
  iterate (fun ((cs, done) : List Char × String) => do
    match cs with
    | [] => return .inr done
    | '$' :: '$' :: cs => return .inl (cs, done.push '$')
    | '$' :: '&' :: cs => return .inl (cs, done ++ whole)
    | '$' :: '\'' :: cs => return .inl (cs, done ++ after)
    | '$' :: '<' :: cs =>
      let name := cs.takeWhile (· != '>')
      match named (String.ofList name) with
      | some v => return .inl (cs.drop (name.length + 1), done ++ (← shown (some v)))
      | none => return .inl (cs, done ++ "$<")
    | '$' :: d :: cs =>
      if d == backtick then return .inl (cs, done ++ before)
      if !d.isDigit then return .inl (d :: cs, done.push '$')
      let one := d.toNat - 48
      let two : Option (Nat × List Char) := match cs with
        | e :: rest => if e.isDigit then some (10 * one + (e.toNat - 48), rest) else none
        | [] => none
      match two.bind fun (n, rest) => (group n).map fun v => (v, rest) with
      | some (v, rest) => return .inl (rest, done ++ (← shown (some v)))
      | none =>
        match group one with
        | some v => return .inl (cs, done ++ (← shown (some v)))
        | none => return .inl (d :: cs, done.push '$')
    | ch :: cs => return .inl (cs, done.push ch)) (template, "")

/-- What a match is replaced with: a text with marks, or what a function gives for it. -/
def replacement (p : Prepared) (s : String) (units : Array Nat) (found : Found) (put : Value) :
    Run String := do
  let (low, high) := (found[0]?.join).getD (0, 0)
  let groups := found.toList.map (groupText p units)
  let named ← groupsValue p units found
  if ← isCallable put then
    let args := groups ++ [numberValue (unitPlace p units low), .text s] ++
      (if named matches .undefined then [] else [named])
    toText (← call put .undefined args)
  else
    let template ← toText put
    let group (n : Nat) : Option Value := if n == 0 then none else groups[n]?
    let byName (name : String) : Option Value :=
      if p.read.names.isEmpty then none
      else some <| ((p.read.names.lookup name).bind fun n => groups[n]?).getD .undefined
    expandMarks template.toList (subjectText p units low high) (subjectText p units 0 low)
      (subjectText p units high units.size) group byName

def replacePattern (p : Prepared) (s : String) (put : Value) : Run Value := do
  let units := subjectUnits p s
  let found ← if p.global then do setLastIndex p 0; pure (findAll p units)
    else pure (← findNext p units).toList
  let (text, place) ← found.foldlM (fun ((text, place) : String × Nat) f => do
    let (low, high) := (f[0]?.join).getD (0, 0)
    let new ← replacement p s units f put
    return (text ++ subjectText p units place low ++ new, high)) ("", 0)
  return .text (text ++ subjectText p units place units.size)

/-! ## Splitting -/

def splitPattern (p : Prepared) (s : String) (limit : Nat) : Run Value := do
  let units := subjectUnits p s
  if units.isEmpty then
    match Matching.find? p.read p.options units 0 true with
    | some _ => return ← listOf []
    | none => return ← listOf [.text s]
  let rec go (bound from_ place : Nat) : List Value :=
    match bound with
    | 0 => []
    | bound + 1 =>
      if units.size ≤ place then [.text (subjectText p units from_ units.size)]
      else
        match Matching.find? p.read p.options units place true with
        | none => go bound from_ (place + 1)
        | some found =>
          let (_, high) := (found[0]?.join).getD (place, place)
          if high == from_ then go bound from_ (place + 1)
          else
            .text (subjectText p units from_ place) ::
              ((found.toList.drop 1).map (groupText p units) ++ go bound high high)
  listOf ((go (2 * units.size + 2) 0 0).take limit)

/-! ## The functions -/

/-- Flags in the order in which they are always written. -/
def flagLetters : List Char := "dgimsuvy".toList

def constructPattern (c : NativeCall) : Run Value := do
  let (body, flags) ← do
    match ← (c.arg 0).body with
    | .pattern body flags => pure (body, flags)
    | _ =>
      match c.arg 0 with
      | .undefined => pure ("(?:)", "")
      | v => do
        let s ← toText v
        pure (if s.isEmpty then "(?:)" else s, "")
  let flags ← match c.arg 1 with
    | .undefined => pure flags
    | v => toText v
  let fs := flags.toList
  if !fs.all flagLetters.contains || fs.eraseDups.length != fs.length then
    syntaxError "invalid regular expression flags"
  if (Matching.parse? (patternOptions flags) body).isNone then
    syntaxError "failed to create matcher: invalid pattern"
  return .object (← allocate {
    body := .pattern body flags, proto := some Intrinsic.patternProto.ref
    properties := #[(.text "lastIndex", ⟨.data (.number 0) true, false, false⟩)] })

/-- A slash in a pattern is written with a backslash. -/
def shownBody (inClass escaped : Bool) : List Char → List Char
  | [] => []
  | '\n' :: cs => '\\' :: 'n' :: shownBody inClass false cs
  | c :: cs =>
    if escaped then c :: shownBody inClass false cs
    else if c == '\\' then c :: shownBody inClass true cs
    else if c == '/' && !inClass then '\\' :: '/' :: shownBody inClass false cs
    else c :: shownBody (if c == '[' then true else if c == ']' then false else inClass) false cs

def patternGetter (name : String) (c : NativeCall) : Run Value := do
  match ← c.self.body with
  | .pattern body flags =>
    match name with
    | "source" => return .text (String.ofList (shownBody false false body.toList))
    | "flags" => return .text (String.ofList (flagLetters.filter flags.toList.contains))
    | name =>
      let letter : Char := match name with
        | "global" => 'g'
        | "ignoreCase" => 'i'
        | "multiline" => 'm'
        | "dotAll" => 's'
        | "unicode" => 'u'
        | "sticky" => 'y'
        | _ => 'd'
      return .boolean (flags.toList.contains letter)
  | _ =>
    typeError ("RegExp.prototype." ++ name ++
      " getter called on non-RegExp object")

def patternGetters : List String :=
  ["source", "flags", "global", "ignoreCase", "multiline", "dotAll", "unicode", "sticky",
    "hasIndices"]

def patternMethods : List NativeFunction := [
  ⟨"exec", 1, execute⟩,
  ⟨"test", 1, fun c => do
    match ← execute c with
    | .null => return .boolean false
    | _ => return .boolean true⟩,
  ⟨"toString", 0, fun c => do
    match c.self with
    | .object r =>
      return .text ("/" ++ (← toText (← getNamed r "source")) ++ "/" ++
        (← toText (← getNamed r "flags")))
    | _ => typeError "RegExp.prototype.toString called on non-object"⟩]

end PagePreview.Engine.Library
