import PagePreview.Text.Hex
import PagePreview.Text.LetterCase
import PagePreview.Text.Units

/-!
# Patterns for texts

A pattern is read from its text and then looked for in a row of numbers, which
are the units of a text or, under the flag `u`, its characters. Looking for a
pattern goes back over its choices; what follows a part of a pattern is handed
to it as a function, so every part is tried together with all that comes
behind it.
-/

namespace PagePreview.Engine.Matching

open Text

/-! ## Patterns as trees -/

/-- A set of numbers. -/
inductive Class where
  | range (low high : Nat)
  | digit | word | space
  | not (c : Class)
  | any (cs : List Class)

inductive Pattern where
  | nothing
  | one (c : Class)
  | both (p q : Pattern)
  | either (p q : Pattern)
  /-- A group with its number. -/
  | group (number : Nat) (p : Pattern)
  /-- What a group has matched, again. -/
  | again (number : Nat)
  | named (name : String)
  /-- A part that is repeated; the groups in it are numbered between `low` and `high`. -/
  | loop (p : Pattern) (least : Nat) (most : Option Nat) (greedy : Bool) (low high : Nat)
  | start | finish
  | wordEdge (negated : Bool)
  | ahead (p : Pattern) (negated : Bool)
  | behind (p : Pattern) (negated : Bool)

/-- What a pattern is looked for with. -/
structure Options where
  ignoreCase : Bool := false
  multiline : Bool := false
  dotAll : Bool := false
  unicode : Bool := false

/-! ## Reading -/

structure Reader where
  rest : List Char
  /-- How many groups have been opened. -/
  groups : Nat := 0
  names : List (String × Nat) := []

abbrev Reading := StateT Reader Option

def peek : Reading (Option Char) := return (← get).rest.head?

def skip (n : Nat := 1) : Reading Unit := modify fun r => { r with rest := r.rest.drop n }

def eat (s : String) : Reading Bool := do
  if s.toList.isPrefixOf (← get).rest then
    skip s.length
    return true
  return false

def number? : Reading (Option Nat) := do
  let ds := (← get).rest.takeWhile Char.isDigit
  if ds.isEmpty then return none
  skip ds.length
  return some (ds.foldl (fun n d => 10 * n + (d.toNat - 48)) 0)

def hex? (count : Nat) : Reading (Option Nat) := do
  let ds := (← get).rest.take count
  if ds.length == count && ds.all fun d => (Hex.value? d).isSome then
    skip count
    return some (ds.foldl (fun n d => 16 * n + (Hex.value? d).getD 0) 0)
  return none

/-- The bounds of a repetition. -/
def bounds? : Reading (Option (Nat × Option Nat)) := do
  match ← peek with
  | some '*' => skip; return some (0, none)
  | some '+' => skip; return some (1, none)
  | some '?' => skip; return some (0, some 1)
  | some '\x7b' =>
    let before ← get
    skip
    match ← number? with
    | none => set before; return none
    | some low =>
      let high ← if ← eat "," then
          match ← number? with
          | some high => pure (some high)
          | none => pure none
        else pure (some low)
      if ← eat "\x7d" then return some (low, high)
      set before
      return none
  | _ => return none

/-- The class that a letter behind a backslash stands for. -/
def classEscape? : Char → Option Class
  | 'd' => some .digit
  | 'D' => some (.not .digit)
  | 'w' => some .word
  | 'W' => some (.not .word)
  | 's' => some .space
  | 'S' => some (.not .space)
  | _ => none

/-- The number that an escape of one character stands for, behind the backslash. -/
def charEscape : Reading Nat := do
  match ← peek with
  | none => failure
  | some c =>
    skip
    match c with
    | 'n' => return 10
    | 'r' => return 13
    | 't' => return 9
    | 'v' => return 11
    | 'f' => return 12
    | '0' => return 0
    | 'x' => return (← hex? 2).getD c.toNat
    | 'u' =>
      if ← eat "\x7b" then
        let ds := (← get).rest.takeWhile (· != '\x7d')
        skip (ds.length + 1)
        return ds.foldl (fun n d => 16 * n + (Hex.value? d).getD 0) 0
      else return (← hex? 4).getD c.toNat
    | 'c' =>
      match ← peek with
      | some l => skip; return l.toNat % 32
      | none => return c.toNat
    | c => return c.toNat

/-- One member of a class in brackets: a number, or a class of its own. -/
def classAtom : Reading (Nat ⊕ Class) := do
  match ← peek with
  | none => failure
  | some '\\' =>
    skip
    match ← peek with
    | some 'b' => skip; return .inl 8
    | some '-' => skip; return .inl 45
    | some c =>
      match classEscape? c with
      | some k => skip; return .inr k
      | none => return .inl (← charEscape)
    | none => failure
  | some c => skip; return .inl c.toNat

/-- The members of a class up to the closing bracket. -/
def classMembers : (bound : Nat) → Reading (List Class)
  | 0 => failure
  | bound + 1 => do
    match ← peek with
    | none => failure
    | some ']' => skip; return []
    | some _ =>
      let a ← classAtom
      let isRange := match (← get).rest with
        | '-' :: ']' :: _ => false
        | '-' :: _ => true
        | _ => false
      match a, isRange with
      | .inl low, true =>
        skip
        match ← classAtom with
        | .inl high =>
          if high < low then failure
          return .range low high :: (← classMembers bound)
        | .inr k => return .range low low :: .range 45 45 :: k :: (← classMembers bound)
      | .inl n, false => return .range n n :: (← classMembers bound)
      | .inr k, _ => return k :: (← classMembers bound)

def isLineEnd : Class := .any [.range 10 10, .range 13 13, .range 0x2028 0x2029]

/-- What stands between angle brackets. -/
def groupName : Reading String := do
  let name := (← get).rest.takeWhile (· != '>')
  skip (name.length + 1)
  return String.ofList name

/-- The parts of a pattern that occur within each other. -/
inductive Part where
  | choice | row | atom

/-- Reads a part of a pattern. -/
def read (o : Options) : (bound : Nat) → Part → Reading Pattern
  | 0, _ => failure
  | bound + 1, .choice => do
    let p ← read o bound .row
    if ← eat "|" then return .either p (← read o bound .choice) else return p
  | bound + 1, .row => do
    match ← peek with
    | none | some '|' | some ')' => return .nothing
    | some _ =>
      let low := (← get).groups
      let p ← read o bound .atom
      let high := (← get).groups
      let p ← match ← bounds? with
        | none => pure p
        | some (least, most) =>
          let lazy ← eat "?"
          pure (.loop p least most (!lazy) low high)
      return .both p (← read o bound .row)
  | bound + 1, .atom => do
    let inGroup (shape : Pattern → Pattern) : Reading Pattern := do
      let p ← read o bound .choice
      if ← eat ")" then return shape p else failure
    if ← eat "(?:" then return ← inGroup id
    if ← eat "(?=" then return ← inGroup (.ahead · false)
    if ← eat "(?!" then return ← inGroup (.ahead · true)
    if ← eat "(?<=" then return ← inGroup (.behind · false)
    if ← eat "(?<!" then return ← inGroup (.behind · true)
    if ← eat "(?<" then
      let name ← groupName
      let n := (← get).groups + 1
      modify fun r => { r with groups := n, names := r.names ++ [(name, n)] }
      return ← inGroup (.group n)
    if ← eat "(" then
      let n := (← get).groups + 1
      modify fun r => { r with groups := n }
      return ← inGroup (.group n)
    if ← eat "[" then
      let negated ← eat "^"
      let cs ← classMembers ((← get).rest.length + 1)
      return .one (if negated then .not (.any cs) else .any cs)
    match ← peek with
    | none => failure
    | some '^' => skip; return .start
    | some '$' => skip; return .finish
    | some '.' => skip; return .one (if o.dotAll then .not (.any []) else .not isLineEnd)
    | some '*' | some '+' | some '?' => failure
    | some '\\' =>
      skip
      match ← peek with
      | none => failure
      | some 'b' => skip; return .wordEdge false
      | some 'B' => skip; return .wordEdge true
      | some 'k' =>
        if ← eat "k<" then return .named (← groupName) else skip; return .one (.range 107 107)
      | some c =>
        match classEscape? c with
        | some k => skip; return .one k
        | none =>
          if '1' ≤ c && c ≤ '9' then return .again ((← number?).getD 0)
          let n ← charEscape
          return .one (.range n n)
    | some c =>
      skip
      let us := if o.unicode then [c.toNat] else Units.ofChar c
      return us.foldr (fun u p => .both (.one (.range u u)) p) .nothing

/-- A pattern that has been read, with the number of its groups and their names. -/
structure Read where
  pattern : Pattern
  groups : Nat
  names : List (String × Nat)

def parse? (o : Options) (text : String) : Option Read := do
  let (p, r) ← (read o (4 * text.length + 4) .choice).run { rest := text.toList }
  if r.rest.isEmpty then some ⟨p, r.groups, r.names⟩ else none

/-! ## Looking for patterns -/

def isSpace (n : Nat) : Bool :=
  [9, 10, 11, 12, 13, 32, 0xA0, 0x1680, 0x2028, 0x2029, 0x202F, 0x205F, 0x3000, 0xFEFF].contains n ||
    (0x2000 ≤ n && n ≤ 0x200A)

def isWord (n : Nat) : Bool :=
  (48 ≤ n && n ≤ 57) || (65 ≤ n && n ≤ 90) || n == 95 || (97 ≤ n && n ≤ 122)

mutual

def Class.contains (n : Nat) : Class → Bool
  | .range low high => low ≤ n && n ≤ high
  | .digit => 48 ≤ n && n ≤ 57
  | .word => isWord n
  | .space => isSpace n
  | .not c => !c.contains n
  | .any cs => Class.anyContains n cs

def Class.anyContains (n : Nat) : List Class → Bool
  | [] => false
  | c :: cs => c.contains n || Class.anyContains n cs

end

/-- A place in a text, and what the groups have matched. -/
structure State where
  place : Nat
  groups : Array (Option (Nat × Nat))

/-- What is left to be matched. -/
abbrev Rest := State → Option State

/-- What is looked through. -/
structure Subject where
  units : Array Nat
  options : Options
  names : List (String × Nat)

namespace Subject

def has (s : Subject) (c : Class) (n : Nat) : Bool :=
  c.contains n ||
    (s.options.ignoreCase && (c.contains (smallLetter n) || c.contains (capitalLetter n)))

def same (s : Subject) (a b : Nat) : Bool :=
  a == b || (s.options.ignoreCase && smallLetter a == smallLetter b)

def isLineEndAt (s : Subject) (i : Nat) : Bool := (s.units[i]?).elim false isLineEnd.contains

def isWordAt (s : Subject) (i : Nat) : Bool := (s.units[i]?).elim false isWord

end Subject

/-- Repeats a part as often as is allowed; a round that takes nothing is the last one. -/
def repeated (body : Rest → Rest) (clear : State → State) (greedy : Bool) :
    (bound least : Nat) → (most : Option Nat) → Rest → Rest
  | 0, _, _, k => k
  | bound + 1, least, most, k => fun st =>
    if most == some 0 then k st
    else
      let round : Unit → Option State := fun () =>
        body (fun st' =>
          if least == 0 && st'.place == st.place then none
          else repeated body clear greedy bound (least - 1) (most.map (· - 1)) k st') (clear st)
      if least != 0 then round ()
      else if greedy then (round ()).orElse fun () => k st
      else (k st).orElse round

/-- Matches a pattern and what follows it. Behind a place, a pattern is matched backwards. -/
def run (s : Subject) : (back : Bool) → Pattern → Rest → Rest
  | _, .nothing, k => k
  | back, .one c, k => fun st =>
    if back then
      match st.place, s.units[st.place - 1]? with
      | i + 1, some n => if s.has c n then k { st with place := i } else none
      | _, _ => none
    else
      match s.units[st.place]? with
      | some n => if s.has c n then k { st with place := st.place + 1 } else none
      | none => none
  | back, .both p q, k =>
    if back then run s back q (run s back p k) else run s back p (run s back q k)
  | back, .either p q, k => fun st =>
    (run s back p k st).orElse fun () => run s back q k st
  | back, .group n p, k => fun st =>
    run s back p (fun st' =>
      let span := (min st.place st'.place, max st.place st'.place)
      k { st' with groups := st'.groups.set! n (some span) }) st
  | back, .again n, k => fun st => backReference s back n k st
  | back, .named name, k => fun st => backReference s back ((s.names.lookup name).getD 0) k st
  | back, .loop p least most greedy low high, k => fun st =>
    let clear (st : State) : State := { st with
      groups := st.groups.mapIdx fun i g => if low < i && i ≤ high then none else g }
    repeated (run s back p) clear greedy (s.units.size + least + 2) least most k st
  | _, .start, k => fun st =>
    if st.place == 0 || (s.options.multiline && s.isLineEndAt (st.place - 1)) then k st else none
  | _, .finish, k => fun st =>
    if st.place == s.units.size || (s.options.multiline && s.isLineEndAt st.place) then k st
    else none
  | _, .wordEdge negated, k => fun st =>
    let before := st.place != 0 && s.isWordAt (st.place - 1)
    if (before != s.isWordAt st.place) != negated then k st else none
  | _, .ahead p negated, k => fun st => around (run s false p some st) negated k st
  | _, .behind p negated, k => fun st => around (run s true p some st) negated k st
where
  /-- Goes on where it was, after something has been found nearby or not. -/
  around (found : Option State) (negated : Bool) (k : Rest) (st : State) : Option State :=
    match found, negated with
    | some st', false => k { st with groups := st'.groups }
    | none, true => k st
    | _, _ => none
  backReference (s : Subject) (back : Bool) (n : Nat) (k : Rest) (st : State) : Option State :=
    match st.groups[n]?.join with
    | none => k st
    | some (i, j) =>
      let length := j - i
      let start := if back then st.place - length else st.place
      let fits := if back then length ≤ st.place else st.place + length ≤ s.units.size
      let same := (List.range length).all fun d =>
        s.same (s.units.getD (i + d) 0) (s.units.getD (start + d) 0)
      if fits && same then
        k { st with place := if back then start else st.place + length }
      else none

/-- Matches a pattern at a place; where it ends, and its groups, the whole match first. -/
def matchAt? (r : Read) (o : Options) (units : Array Nat) (place : Nat) :
    Option (Array (Option (Nat × Nat))) :=
  let s : Subject := { units, options := o, names := r.names }
  let start : State := { place, groups := Array.replicate (r.groups + 1) none }
  (run s false r.pattern some start).map fun st => st.groups.set! 0 (some (place, st.place))

/-- The first match from a place on. -/
def find? (r : Read) (o : Options) (units : Array Nat) (place : Nat) (sticky : Bool) :
    Option (Array (Option (Nat × Nat))) :=
  if sticky then (if place ≤ units.size then matchAt? r o units place else none)
  else ((List.range (units.size + 1)).drop place).findSome? (matchAt? r o units)

end PagePreview.Engine.Matching
