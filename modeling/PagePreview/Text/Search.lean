/-!
# Looking for a fixed text inside a list of characters

`startsWith` and `startsWithNoCase` test the front, `dropFront?` removes
it, `breakOn?` cuts at the first occurrence and `replaceAll` replaces
every occurrence from left to right. Case is ASCII case throughout: `Char.toLower`
leaves all other characters alone.
-/

namespace PagePreview.Text

/-- The text in ASCII lower case. -/
def lowerChars (cs : List Char) : List Char := cs.map Char.toLower

/-- The text in ASCII lower case. -/
def lower (s : String) : String := String.ofList (lowerChars s.toList)

/-- Whether `cs` begins with `front`. -/
def startsWith (front cs : List Char) : Bool := front.isPrefixOf cs

/-- Whether `cs` begins with `front` when ASCII case is ignored; `front` is in lower case. -/
def startsWithNoCase : (front cs : List Char) → Bool
  | [], _ => true
  | _ :: _, [] => false
  | f :: fs, c :: cs => f == c.toLower && startsWithNoCase fs cs

/-- What follows `front`, if `cs` begins with it. -/
def dropFront? : (front cs : List Char) → Option (List Char)
  | [], cs => some cs
  | _ :: _, [] => none
  | f :: fs, c :: cs => if f = c then dropFront? fs cs else none

theorem dropFront?_append (front cs : List Char) : dropFront? front (front ++ cs) = some cs := by
  induction front with
  | nil => rfl
  | cons f fs ih => simp [dropFront?, ih]

theorem eq_append_of_dropFront? {front cs rest : List Char}
    (h : dropFront? front cs = some rest) : cs = front ++ rest := by
  induction front generalizing cs with
  | nil => simpa [dropFront?] using h
  | cons f fs ih =>
    cases cs with
    | nil => simp [dropFront?] at h
    | cons c cs =>
      simp only [dropFront?] at h
      split at h
      · next hfc => rw [hfc, ih h, List.cons_append]
      · exact absurd h (by simp)

theorem startsWith_eq_isSome_dropFront? (front cs : List Char) :
    startsWith front cs = (dropFront? front cs).isSome := by
  induction front generalizing cs with
  | nil => simp [startsWith, dropFront?]
  | cons f front ih =>
    cases cs with
    | nil => rfl
    | cons c cs =>
      simp only [startsWith, List.isPrefixOf_cons_cons, dropFront?] at ih ⊢
      split
      · next h => simpa [h] using ih cs
      · next h => simp [h]

/-- The text before the first occurrence of `mark` and the text after it. -/
def breakOn? (mark : List Char) : List Char → Option (List Char × List Char)
  | [] => (dropFront? mark []).map (([], ·))
  | c :: cs =>
    match dropFront? mark (c :: cs) with
    | some rest => some ([], rest)
    | none => (breakOn? mark cs).map fun (before, rest) => (c :: before, rest)

/-- Cutting at a mark loses nothing. -/
theorem eq_append_of_breakOn? {mark cs before rest : List Char}
    (h : breakOn? mark cs = some (before, rest)) : cs = before ++ mark ++ rest := by
  induction cs generalizing before with
  | nil =>
    simp only [breakOn?, Option.map_eq_some_iff, Prod.mk.injEq] at h
    obtain ⟨r, hr, rfl, rfl⟩ := h
    simpa using eq_append_of_dropFront? hr
  | cons c cs ih =>
    simp only [breakOn?] at h
    split at h
    · next r hr =>
      simp only [Option.some.injEq, Prod.mk.injEq] at h
      obtain ⟨rfl, rfl⟩ := h
      simpa using eq_append_of_dropFront? hr
    · simp only [Option.map_eq_some_iff, Prod.mk.injEq] at h
      obtain ⟨⟨b, r⟩, hbr, rfl, rfl⟩ := h
      simp [ih hbr]

/-- The part before the first character that satisfies `p`, and the part from it on. -/
def breakWhere (p : Char → Bool) (cs : List Char) : List Char × List Char :=
  (cs.takeWhile (!p ·), cs.dropWhile (!p ·))

/-- Replaces every occurrence of `mark`, from left to right and without overlap. The first
argument counts the characters of an occurrence that are still to be passed over. -/
def replaceFrom (mark put : List Char) : Nat → List Char → List Char
  | _, [] => []
  | skip + 1, _ :: cs => replaceFrom mark put skip cs
  | 0, c :: cs =>
    if startsWith mark (c :: cs) then put ++ replaceFrom mark put (mark.length - 1) cs
    else c :: replaceFrom mark put 0 cs

/-- Replaces every occurrence of `mark`, from left to right and without overlap. -/
def replaceAll (mark put cs : List Char) : List Char := replaceFrom mark put 0 cs

/-- The pieces between the places where `p` holds; one piece more than there are such places. -/
def splitWhere (p : Char → Bool) : List Char → List (List Char)
  | [] => [[]]
  | c :: cs =>
    if p c then [] :: splitWhere p cs
    else match splitWhere p cs with
      | [] => [[c]]
      | first :: others => (c :: first) :: others

/-- Whether `part` occurs in `cs`. -/
def contains (part : List Char) : List Char → Bool
  | [] => part.isEmpty
  | c :: cs => startsWith part (c :: cs) || contains part cs

end PagePreview.Text
