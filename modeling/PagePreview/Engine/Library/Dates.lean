import PagePreview.Engine.Library.Basic

/-!
# Dates of the library

A date is a number of milliseconds since the beginning of 1970. Days are
counted by the Gregorian calendar, and all clocks show universal time.
-/

namespace PagePreview.Engine.Library

/-! ## The calendar -/

/-- The day, counted from the beginning of 1970, of a day in a year; months are counted from zero
and may be any number. -/
def dayOf (year month day : Int) : Int :=
  let year := year + month / 12
  let month := month % 12
  -- Years begin in March, so that a leap day is the last day of a year.
  let y := if month < 2 then year - 1 else year
  let m := (month + 10) % 12
  let era := y / 400
  let yearOfEra := y % 400
  let dayOfYear := (153 * m + 2) / 5
  era * 146097 + yearOfEra * 365 + yearOfEra / 4 - yearOfEra / 100 + dayOfYear + day - 1 - 719468

/-- The year, the month from zero on, and the day of the month of a day. -/
def civil (day : Int) : Int × Int × Int :=
  let z := day + 719468
  let era := z / 146097
  let d := z % 146097
  let y := (d - d / 1460 + d / 36524 - d / 146096) / 365
  let doy := d - (365 * y + y / 4 - y / 100)
  let m := (5 * doy + 2) / 153
  let month := (m + 2) % 12
  (y + era * 400 + (if month < 2 then 1 else 0), month, doy - (153 * m + 2) / 5 + 1)

structure Moment where
  year : Int
  month : Int
  day : Int
  hour : Int
  minute : Int
  second : Int
  milli : Int
  weekday : Int

def moment (time : Int) : Moment :=
  let day := time / 86400000
  let rest := time % 86400000
  let (year, month, dayOfMonth) := civil day
  { year, month, day := dayOfMonth
    hour := rest / 3600000, minute := rest / 60000 % 60, second := rest / 1000 % 60
    milli := rest % 1000, weekday := (day + 4) % 7 }

def Moment.time (m : Moment) : Int :=
  dayOf m.year m.month m.day * 86400000 + m.hour * 3600000 + m.minute * 60000 + m.second * 1000 +
    m.milli

/-- A time, unless it lies too far away. -/
def clipped (time : Int) : Float :=
  if time.natAbs ≤ 8640000000000000 then Decimal.ofInt time else nan

/-! ## Writing and reading -/

/-- A number with at least so many digits. -/
def places (count : Nat) (i : Int) : String :=
  let ds := Decimal.natDigits i.natAbs
  (if i < 0 then "-" else "") ++ String.ofList (List.replicate (count - ds.length) '0' ++ ds)

def dayNames : List String := ["Sun", "Mon", "Tue", "Wed", "Thu", "Fri", "Sat"]

def monthNames : List String :=
  ["Jan", "Feb", "Mar", "Apr", "May", "Jun", "Jul", "Aug", "Sep", "Oct", "Nov", "Dec"]

namespace Moment

def isoText (m : Moment) : String :=
  let year := if 0 ≤ m.year && m.year ≤ 9999 then places 4 m.year
    else (if m.year < 0 then "-" else "+") ++ places 6 m.year.natAbs
  year ++ "-" ++ places 2 (m.month + 1) ++ "-" ++ places 2 m.day ++ "T" ++ places 2 m.hour ++ ":" ++
    places 2 m.minute ++ ":" ++ places 2 m.second ++ "." ++ places 3 m.milli ++ "Z"

def dateText (m : Moment) : String :=
  dayNames.getD m.weekday.toNat "" ++ " " ++ monthNames.getD m.month.toNat "" ++ " " ++
    places 2 m.day ++ " " ++ places 4 m.year

def clockText (m : Moment) : String :=
  places 2 m.hour ++ ":" ++ places 2 m.minute ++ ":" ++ places 2 m.second

def timeText (m : Moment) : String := m.clockText ++ " GMT+0000"

def fullText (m : Moment) : String := m.dateText ++ " " ++ m.timeText

def universalText (m : Moment) : String :=
  dayNames.getD m.weekday.toNat "" ++ ", " ++ places 2 m.day ++ " " ++
    monthNames.getD m.month.toNat "" ++ " " ++ places 4 m.year ++ " " ++ m.clockText ++ " GMT"

end Moment

/-- Numbers in a text, with the characters in front of each. -/
def numbersIn (cs : List Char) : List (Char × Nat × Nat) :=
  go (cs.length + 1) 'x' cs
where
  go : (bound : Nat) → Char → List Char → List (Char × Nat × Nat)
    | 0, _, _ => []
    | _, _, [] => []
    | bound + 1, before, c :: cs =>
      if c.isDigit then
        let ds := (c :: cs).takeWhile Char.isDigit
        (before, ds.foldl (fun n d => 10 * n + (d.toNat - 48)) 0, ds.length) ::
          go bound 'x' ((c :: cs).dropWhile Char.isDigit)
      else go bound c cs

/-- The time of a text in the international form; a text in another form has none. -/
def readDate (s : String) : Float :=
  let cs := s.toList
  let ns := numbersIn cs
  let partAt (i : Nat) (usual : Int) : Int := (ns[i]?).elim usual fun (_, n, _) => n
  match ns with
  | (_, year, 4) :: _ =>
    let front := ns.takeWhile fun (before, _, _) => before != '+'
    let datePart := front.filter fun (before, _, _) => before == 'x' || before == '-'
    if datePart.length ≤ 3 && (cs.head?).elim false Char.isDigit then
      let milli := match ns[6]? with
        | some (_, n, 3) => (n : Int)
        | some (_, n, 2) => n * 10
        | some (_, n, 1) => n * 100
        | _ => 0
      let month := partAt 1 1
      let day := partAt 2 1
      let hour := partAt 3 0
      if month < 1 || 12 < month || day < 1 || 31 < day || 24 < hour || 59 < partAt 4 0 then nan
      else
        let m : Moment := {
          year, month := month - 1, day, hour, minute := partAt 4 0, second := partAt 5 0
          milli, weekday := 0 }
        clipped m.time
    else nan
  | _ => nan

/-! ## The functions -/

def thisTime (c : NativeCall) : Run Float := do
  match ← c.self.body with
  | .date t => return t
  | _ => typeError "'this' is not a Date"

/-- A number that is read off a date. -/
def part (name : String) (read : Moment → Int) : List NativeFunction :=
  let run (c : NativeCall) : Run Value := do
    let t ← thisTime c
    if t.isNaN then return .number nan
    return .number (Decimal.ofInt (read (moment (Decimal.truncated t))))
  [⟨"get" ++ name, 0, run⟩, ⟨"getUTC" ++ name, 0, run⟩]

/-- Parts of a date that are set by the arguments, in their order. -/
def change (name : String) (length : Nat) (parts : List (Moment → Int → Moment)) :
    List NativeFunction :=
  let run (c : NativeCall) : Run Value := do
    let t ← thisTime c
    let xs ← c.arguments.mapM toNumber
    let start : Moment := if t.isNaN then moment 0 else moment (Decimal.truncated t)
    let time := if t.isNaN || xs.isEmpty || !xs.all Decimal.isFinite then nan
      else clipped ((parts.zip xs).foldl (fun m (put, x) => put m (Decimal.truncated x)) start).time
    match c.self with
    | .object r => changeBody r fun _ => .date time
    | _ => pure ()
    return .number time
  [⟨"set" ++ name, length, run⟩, ⟨"setUTC" ++ name, length, run⟩]

/-- A text of a date. -/
def dateWriter (name : String) (write : Moment → String) : NativeFunction :=
  ⟨name, 0, fun c => do
    let t ← thisTime c
    if t.isNaN then return .text "Invalid Date"
    return .text (write (moment (Decimal.truncated t)))⟩

def setHour (m : Moment) (i : Int) : Moment := { m with hour := i }
def setMinute (m : Moment) (i : Int) : Moment := { m with minute := i }
def setSecond (m : Moment) (i : Int) : Moment := { m with second := i }
def setMilli (m : Moment) (i : Int) : Moment := { m with milli := i }
def setYear (m : Moment) (i : Int) : Moment := { m with year := i }
def setMonth (m : Moment) (i : Int) : Moment := { m with month := i }
def setDay (m : Moment) (i : Int) : Moment := { m with day := i }

def dateMethods : List NativeFunction :=
  part "FullYear" (·.year) ++ part "Month" (·.month) ++ part "Date" (·.day) ++
  part "Day" (·.weekday) ++ part "Hours" (·.hour) ++ part "Minutes" (·.minute) ++
  part "Seconds" (·.second) ++ part "Milliseconds" (·.milli) ++
  change "FullYear" 3 [setYear, setMonth, setDay] ++ change "Month" 2 [setMonth, setDay] ++
  change "Date" 1 [setDay] ++ change "Hours" 4 [setHour, setMinute, setSecond, setMilli] ++
  change "Minutes" 3 [setMinute, setSecond, setMilli] ++ change "Seconds" 2 [setSecond, setMilli] ++
  change "Milliseconds" 1 [setMilli] ++ [
  dateWriter "toString" Moment.fullText, dateWriter "toDateString" Moment.dateText,
  dateWriter "toTimeString" Moment.timeText, dateWriter "toUTCString" Moment.universalText,
  dateWriter "toLocaleString" Moment.fullText, dateWriter "toLocaleDateString" Moment.dateText,
  dateWriter "toLocaleTimeString" Moment.timeText,
  ⟨"toISOString", 0, fun c => do
    let t ← thisTime c
    if t.isNaN then rangeError "Invalid time value"
    return .text (moment (Decimal.truncated t)).isoText⟩,
  ⟨"toJSON", 1, fun c => do
    match ← toPrimitive .number c.self with
    | .number x => if Decimal.isFinite x then invoke c.self "toISOString" [] else return .null
    | _ => invoke c.self "toISOString" []⟩,
  ⟨"getTimezoneOffset", 0, fun c => do
    return .number (if (← thisTime c).isNaN then nan else 0)⟩,
  ⟨"setTime", 1, fun c => do
    let _ ← thisTime c
    let x ← toNumber (c.arg 0)
    let time := if Decimal.isFinite x then clipped (Decimal.truncated x) else nan
    match c.self with
    | .object r => changeBody r fun _ => .date time
    | _ => pure ()
    return .number time⟩,
  ⟨"getTime", 0, fun c => return .number (← thisTime c)⟩,
  ⟨"valueOf", 0, fun c => return .number (← thisTime c)⟩]

/-- What a date is as a value that is no object: a text, unless a number is wanted. -/
def datePrimitive (c : NativeCall) : Run Value := do
  match c.self, c.arg 0 with
  | .object r, .text hint =>
    let names := if hint == "number" then ["valueOf", "toString"] else ["toString", "valueOf"]
    for name in names do
      let f ← getNamed r name
      if ← isCallable f then
        match ← call f c.self [] with
        | .object _ => pure ()
        | v => return v
    typeError "cannot convert object to primitive value"
  | _, _ => typeError "Date.prototype[Symbol.toPrimitive] called on non object"

/-- The time of parts that are given one by one. -/
def timeOfParts (xs : List Float) : Float :=
  if !xs.all Decimal.isFinite then nan
  else
    let is := xs.map Decimal.truncated
    let partAt (i : Nat) (usual : Int) : Int := is.getD i usual
    let year := partAt 0 0
    let m : Moment := {
      year := if 0 ≤ year && year ≤ 99 then 1900 + year else year
      month := partAt 1 0, day := partAt 2 1, hour := partAt 3 0, minute := partAt 4 0,
      second := partAt 5 0
      milli := partAt 6 0, weekday := 0 }
    clipped m.time

def dateStatics : List NativeFunction := [
  ⟨"now", 0, fun _ => return .number (← get).clock⟩,
  ⟨"parse", 1, fun c => do return .number (readDate (← toText (c.arg 0)))⟩,
  ⟨"UTC", 7, fun c => do return .number (timeOfParts (← c.arguments.mapM toNumber))⟩]

def constructDate (c : NativeCall) : Run Value := do
  if !c.isNew then return .text (moment (Decimal.truncated (← get).clock)).fullText
  let time ← match c.arguments with
    | [] => do pure (← get).clock
    | [v] =>
      match ← v.body with
      | .date t => pure t
      | _ =>
        match ← toPrimitive .any v with
        | .text s => pure (readDate s)
        | v => do
          let x ← toNumber v
          pure (if Decimal.isFinite x then clipped (Decimal.truncated x) else nan)
    | vs => do pure (timeOfParts (← vs.mapM toNumber))
  let proto ← match c.newTarget with
    | .object t =>
      match ← getNamed t "prototype" with
      | .object p => pure p
      | _ => pure Intrinsic.dateProto.ref
    | _ => pure Intrinsic.dateProto.ref
  return .object (← allocate { body := .date time, proto := some proto })

end PagePreview.Engine.Library
