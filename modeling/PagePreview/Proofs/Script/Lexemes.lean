import Mathlib.Data.List.TakeWhile
import PagePreview.Proofs.Json.QuotedText
import PagePreview.Proofs.Text.AsciiCase
import PagePreview.Proofs.Text.Pieces
import PagePreview.Script.Token

/-!
# Words and literals, read back

A name that is written with its own characters is read as that name
(`lexeme_name`), and every word that is read is a name, whatever it was written
with (`isName_of_lexeme`).

A text in quotes as JSON writes it is read as a literal with that value
(`lexeme_quote`), whatever characters the text has.  What JSON leaves as it is
stands for itself in a script, line separators too, and what it escapes is
escaped alike.
-/

namespace PagePreview.Script

open Text

/-- An identifier, each character of which stands for itself. -/
def isName : List Char → Bool
  | [] => false
  | c :: cs => isIdentifierStart c && cs.all isIdentifierPart

/-! ## The characters of names -/

/-- The characters of names that are looked for first. -/
def isAsciiPart (c : Char) : Bool := c.isAlphanum || c == '$' || c == '_'

theorem toNat_of_isAsciiPart {c : Char} (h : isAsciiPart c = true) : c.toNat < 0x80 := by
  simp only [isAsciiPart, Bool.or_eq_true, beq_iff_eq] at h
  rcases h with (h | rfl) | rfl
  · exact toNat_of_isAlphanum h
  · decide
  · decide

theorem isAsciiPart_iff {c : Char} :
    isAsciiPart c = true ↔ isIdentifierPart c = true ∧ c.toNat < 0x80 := by
  constructor
  · intro h
    have hAscii := toNat_of_isAsciiPart h
    exact ⟨by rwa [isIdentifierPart, if_pos hAscii], hAscii⟩
  · rintro ⟨hPart, hAscii⟩
    rwa [isIdentifierPart, if_pos hAscii] at hPart

theorem isIdentifierPart_of_isIdentifierStart {c : Char} (h : isIdentifierStart c = true) :
    isIdentifierPart c = true := by
  by_cases hAscii : c.toNat < 0x80
  · rw [isIdentifierStart, if_pos hAscii] at h
    rw [isIdentifierPart, if_pos hAscii, Char.isAlphanum]
    revert h
    cases c.isAlpha <;> cases c.isDigit <;> simp
  · rw [isIdentifierStart, if_neg hAscii] at h
    rw [isIdentifierPart, if_neg hAscii, h]
    simp

/-- Among the quickly tested characters only digits cannot begin a name. -/
theorem isIdentifierStart_of_isAsciiPart {c : Char} (h : isAsciiPart c = true)
    (hDigit : c.isDigit = false) : isIdentifierStart c = true := by
  rw [isIdentifierStart, if_pos (toNat_of_isAsciiPart h)]
  rwa [isAsciiPart, Char.isAlphanum, hDigit, Bool.or_false] at h

theorem not_isDigit_of_isIdentifierStart {c : Char} (h : isIdentifierStart c = true) :
    c.isDigit = false := by
  have hAll : ∀ n < 0x80, isIdentifierStart (Char.ofNat n) = true →
      (Char.ofNat n).isDigit = false := by
    decide +kernel
  by_cases hAscii : c.toNat < 0x80
  · exact of_toNat_lt (P := fun c => isIdentifierStart c = true → c.isDigit = false) hAll hAscii h
  · exact not_isDigit_of_le (by omega)

/-- Whether a character only stands between tokens: a blank or the end of a line. -/
def isGap (c : Char) : Bool := Literal.isLineEnd c || isSpace c

theorem not_isIdentifierPart_of_isSpace {c : Char} (h : isSpace c = true) :
    isIdentifierPart c = false := by
  simp only [isSpace, Bool.or_eq_true, beq_iff_eq, Bool.and_eq_true, decide_eq_true_eq] at h
  rcases h with (((((((((((rfl | rfl) | rfl) | rfl) | rfl) | rfl) | rfl) | rfl) | hRange) |
    rfl) | rfl) | rfl) | rfl
  case inl.inl.inl.inl.inr =>
    have hLow : 0x2000 ≤ c.toNat := hRange.1
    have hHigh : c.toNat ≤ 0x200b := hRange.2
    have hNone : ∀ k < 12, isIdentifierPart (Char.ofNat (0x2000 + k)) = false := by
      decide +kernel
    have hSame := hNone (c.toNat - 0x2000) (by omega)
    rwa [show 0x2000 + (c.toNat - 0x2000) = c.toNat by omega, Char.ofNat_toNat] at hSame
  all_goals decide +kernel

/-- What stands between tokens is no part of a name. -/
theorem not_isIdentifierPart_of_isGap {c : Char} (h : isGap c = true) :
    isIdentifierPart c = false := by
  rcases Bool.or_eq_true_iff.mp h with hLine | hSpace
  · simp only [Literal.isLineEnd, Bool.or_eq_true, beq_iff_eq] at hLine
    rcases hLine with ((rfl | rfl) | rfl) | rfl <;> decide +kernel
  · exact not_isIdentifierPart_of_isSpace hSpace

theorem not_isGap_of_isIdentifierPart {c : Char} (h : isIdentifierPart c = true) :
    isGap c = false := by
  refine Bool.eq_false_of_not_eq_true fun hGap => ?_
  rw [not_isIdentifierPart_of_isGap hGap] at h
  exact absurd h (by decide)

/-- A character that is no name's first one. -/
theorem ne_of_isIdentifierStart {c d : Char} (h : isIdentifierStart c = true)
    (hOther : isIdentifierStart d = false) : c ≠ d := by
  rintro rfl
  rw [h] at hOther
  exact absurd hOther (by decide)

/-- A character that begins no mark. -/
theorem mark?_of_head {c : Char} (h : ∀ m ∈ marks, m.toList.head? ≠ some c) (cs : List Char) :
    mark? (c :: cs) = none := by
  have hSome : ∀ m ∈ marks, m.toList ≠ [] := by decide +kernel
  have hQuestion : c ≠ '?' := by
    rintro rfl
    exact h "?" (by decide) rfl
  have hNone : marks.find? (fun m => startsWith m.toList (c :: cs)) = none := by
    rw [List.find?_eq_none]
    intro m hMem hStarts
    cases hChars : m.toList with
    | nil => exact hSome m hMem hChars
    | cons d ds =>
      rw [hChars] at hStarts
      simp only [startsWith, List.isPrefixOf_cons_cons, Bool.and_eq_true, beq_iff_eq] at hStarts
      refine h m hMem ?_
      rw [hChars, List.head?_cons, hStarts.1]
  unfold mark?
  split
  · next heq => exact absurd (List.cons.inj heq).1 hQuestion
  · exact hNone

/-- No mark begins like a name. -/
theorem mark?_of_isIdentifierStart {c : Char} (h : isIdentifierStart c = true) (cs : List Char) :
    mark? (c :: cs) = none := by
  have hFronts : ∀ m ∈ marks, (m.toList.head?.all fun d => !isIdentifierStart d) = true := by
    decide +kernel
  refine mark?_of_head (fun m hMem hHead => ?_) cs
  have hFront := hFronts m hMem
  rw [hHead] at hFront
  simp [h] at hFront

/-- All marks are written in ASCII. -/
theorem mark?_of_le {c : Char} (h : 0x80 ≤ c.toNat) (cs : List Char) : mark? (c :: cs) = none := by
  have hFronts : ∀ m ∈ marks, (m.toList.head?.all fun d => d.toNat < 0x80) = true := by
    decide +kernel
  refine mark?_of_head (fun m hMem hHead => ?_) cs
  have hFront := hFronts m hMem
  rw [hHead] at hFront
  simp at hFront
  omega

/-! ## Reading a name -/

/-- A character without a backslash stands for itself. -/
theorem identifierUnit?_of_ne {c : Char} (hBackslash : c ≠ '\\') (first : Bool) (cs : List Char) :
    identifierUnit? first (c :: cs) =
      if (if first then isIdentifierStart c else isIdentifierPart c) then some (c, 1, false)
      else none := by
  rw [identifierUnit?]
  intro _ heq _
  exact hBackslash heq

theorem ne_backslash_of_isIdentifierPart {c : Char} (h : isIdentifierPart c = true) : c ≠ '\\' := by
  rintro rfl
  exact absurd h (by decide)

/-- A character that ends a name: none of its parts, and no escape of one. -/
structure EndsName (c : Char) : Prop where
  not_part : isIdentifierPart c = false
  ne_backslash : c ≠ '\\'

theorem endsName_of_isGap {c : Char} (h : isGap c = true) : EndsName c := by
  refine ⟨not_isIdentifierPart_of_isGap h, ?_⟩
  rintro rfl
  exact absurd h (by decide)

section

variable {stop : Char} (hStop : EndsName stop)
include hStop

/-- The characters of a name up to its end, one by one. -/
theorem identifierFrom_append {cs : List Char} (h : ∀ c ∈ cs, isIdentifierPart c = true)
    (rest : List Char) {fuel : Nat} (hFuel : cs.length < fuel) :
    identifierFrom fuel false (cs ++ stop :: rest) = (cs, cs.length, false) := by
  induction cs generalizing fuel with
  | nil =>
    obtain ⟨fuel, rfl⟩ : ∃ k, fuel = k + 1 := ⟨fuel - 1, by simp at hFuel; omega⟩
    rw [List.nil_append, identifierFrom, identifierUnit?_of_ne hStop.ne_backslash,
      if_neg Bool.false_ne_true, hStop.not_part]
    rfl
  | cons c cs ih =>
    rw [List.length_cons] at hFuel
    obtain ⟨fuel, rfl⟩ : ∃ k, fuel = k + 1 := ⟨fuel - 1, by omega⟩
    have hPart : isIdentifierPart c = true := h c List.mem_cons_self
    have hRest := ih (fun d hd => h d (List.mem_cons_of_mem c hd)) (show cs.length < fuel by omega)
    rw [List.cons_append, identifierFrom,
      identifierUnit?_of_ne (ne_backslash_of_isIdentifierPart hPart)]
    simp [hPart, hRest, Nat.add_comm]

/-- The same for a whole name, the first character of which is told apart. -/
theorem identifierFrom_name {c : Char} {cs : List Char} (h : isName (c :: cs) = true)
    (rest : List Char) {fuel : Nat} (hFuel : cs.length + 1 < fuel) :
    identifierFrom fuel true (c :: (cs ++ stop :: rest)) = (c :: cs, cs.length + 1, false) := by
  obtain ⟨hStart, hParts⟩ := Bool.and_eq_true_iff.mp h
  obtain ⟨fuel, rfl⟩ : ∃ k, fuel = k + 1 := ⟨fuel - 1, by omega⟩
  have hPart := isIdentifierPart_of_isIdentifierStart hStart
  have hRest := identifierFrom_append hStop (List.all_eq_true.mp hParts) rest
    (show cs.length < fuel by omega)
  rw [identifierFrom, identifierUnit?_of_ne (ne_backslash_of_isIdentifierPart hPart)]
  simp [hStart, hRest, Nat.add_comm]

omit hStop in
theorem forall_isIdentifierPart {name : List Char} (h : isName name = true) :
    ∀ c ∈ name, isIdentifierPart c = true := by
  cases name with
  | nil => simp
  | cons c cs =>
    obtain ⟨hStart, hParts⟩ := Bool.and_eq_true_iff.mp h
    exact List.forall_mem_cons.mpr
      ⟨isIdentifierPart_of_isIdentifierStart hStart, List.all_eq_true.mp hParts⟩

/-- The front of a name that is looked for first ends with the name or in front of a character
outside ASCII. -/
theorem span_name {name : List Char} (h : isName name = true) (rest : List Char) :
    ∃ front back, name = front ++ back ∧ (∀ c ∈ front, isAsciiPart c = true) ∧
      (∀ d, back.head? = some d → 0x80 ≤ d.toNat) ∧
      (name ++ stop :: rest).span isAsciiPart = (front, back ++ stop :: rest) := by
  have hName : name.takeWhile isAsciiPart ++ name.dropWhile isAsciiPart = name :=
    List.takeWhile_append_dropWhile
  have hFront : ∀ c ∈ name.takeWhile isAsciiPart, isAsciiPart c = true :=
    fun c hc => List.mem_takeWhile_imp hc
  have hBack : ∀ d, (name.dropWhile isAsciiPart).head? = some d → isAsciiPart d = false :=
    fun d hd => by simpa [hd] using List.head?_dropWhile_not isAsciiPart name
  refine ⟨_, _, hName.symm, hFront, ?_, ?_⟩
  · intro d hd
    have hPart := forall_isIdentifierPart h d
      ((List.dropWhile_sublist _).subset (List.mem_of_mem_head? hd))
    by_contra hAscii
    have hBoth := isAsciiPart_iff.mpr ⟨hPart, by omega⟩
    rw [hBack d hd] at hBoth
    exact absurd hBoth (by decide)
  · have hHead : ∀ d, (name.dropWhile isAsciiPart ++ stop :: rest).head? = some d →
        isAsciiPart d = false := by
      intro d hd
      cases hDrop : name.dropWhile isAsciiPart with
      | nil =>
        obtain rfl : stop = d := by simpa [hDrop] using hd
        refine Bool.eq_false_of_not_eq_true fun hPart => ?_
        exact absurd hStop.not_part (by simp [(isAsciiPart_iff.mp hPart).1])
      | cons e es => exact hBack d (by simpa [hDrop] using hd)
    have hWhole : name ++ stop :: rest =
        name.takeWhile isAsciiPart ++ (name.dropWhile isAsciiPart ++ stop :: rest) := by
      rw [← List.append_assoc, hName]
    rw [List.span_eq_takeWhile_dropWhile, hWhole, takeWhile_append_of_head? hFront hHead,
      dropWhile_append_of_head? hFront hHead]

/-- **A name up to its end is read as that name.** -/
theorem identifier?_name {name : List Char} (h : isName name = true) (rest : List Char) :
    identifier? (name ++ stop :: rest) = some (String.ofList name, name.length, false) := by
  obtain ⟨front, back, rfl, hFront, hBack, hSpan⟩ := span_name hStop h rest
  have hParts := forall_isIdentifierPart h
  unfold identifier?
  rw [show ((front ++ back) ++ stop :: rest).span (fun c => c.isAlphanum || c == '$' || c == '_') =
    (front, back ++ stop :: rest) from hSpan]
  cases back with
  | nil =>
    cases front with
    | nil => exact absurd h (by decide)
    | cons c cs =>
      have hStart : isIdentifierStart c = true := (Bool.and_eq_true_iff.mp h).1
      -- behind the end nothing more is found
      have hNone (fuel : Nat) (hFuel : 0 < fuel) :
          identifierFrom fuel false (stop :: rest) = ([], 0, false) :=
        @identifierFrom_append _ hStop [] nofun rest _ hFuel
      simp [not_isDigit_of_isIdentifierStart hStart, hNone]
  | cons d ds =>
    have hWide : 0x80 ≤ d.toNat := hBack d rfl
    cases front with
    | nil =>
      have hRead (fuel : Nat) (hFuel : ds.length + 1 < fuel) :=
        identifierFrom_name hStop h rest hFuel
      simp (disch := omega) [hWide, hRead]
    | cons c cs =>
      have hStart : isIdentifierStart c = true := (Bool.and_eq_true_iff.mp h).1
      have hRest : ∀ e ∈ d :: ds, isIdentifierPart e = true :=
        fun e he => hParts e (List.mem_append_right _ he)
      have hRead (fuel : Nat) (hFuel : ds.length + 1 < fuel) :
          identifierFrom fuel false (d :: (ds ++ stop :: rest)) = (d :: ds, ds.length + 1, false) :=
        identifierFrom_append hStop hRest rest hFuel
      simp (disch := omega) [hWide, not_isDigit_of_isIdentifierStart hStart, hRead]
      omega

/-- **A name up to its end is a word.** -/
theorem lexeme_name {name : List Char} (h : isName name = true) (rest : List Char) :
    lexeme (name ++ stop :: rest) = (.word (String.ofList name) false, name.length) := by
  cases name with
  | nil => exact absurd h (by decide)
  | cons c cs =>
    have hStart : isIdentifierStart c = true := (Bool.and_eq_true_iff.mp h).1
    have hDouble := ne_of_isIdentifierStart hStart (d := '"') (by decide)
    have hSingle := ne_of_isIdentifierStart hStart (d := '\'') (by decide)
    have hPoint := ne_of_isIdentifierStart hStart (d := '.') (by decide)
    have hHash := ne_of_isIdentifierStart hStart (d := '#') (by decide)
    have hRead := identifier?_name hStop h rest
    rw [List.cons_append] at hRead ⊢
    rw [lexeme]
    simp [hDouble, hSingle, hPoint, hHash, not_isDigit_of_isIdentifierStart hStart,
      mark?_of_isIdentifierStart hStart, hRead]

end

/-! ## What begins like no name -/

/-- Whether a lexeme is neither a word nor a mark nor a text in quotes. -/
def IsOther : Lexeme → Prop
  | .word _ _ | .mark _ | .string _ _ => False
  | _ => True

theorem isOther_of_isDigit {c : Char} (h : c.isDigit = true) (cs : List Char) :
    IsOther (lexeme (c :: cs)).1 := by
  have hDouble : c ≠ '"' := by rintro rfl; exact absurd h (by decide)
  have hSingle : c ≠ '\'' := by rintro rfl; exact absurd h (by decide)
  have hNumber (text : List Char) : IsOther (lexeme.number text) := by
    unfold lexeme.number
    split <;> trivial
  rw [lexeme, if_neg (by simp [hDouble, hSingle]), if_pos (by simp [h])]
  split
  · trivial
  · dsimp only
    split
    · split
      · trivial
      · exact hNumber _
    · exact hNumber _

/-- A character that can only go on with a name begins no word. -/
theorem isOther_of_not_isIdentifierStart {c : Char} (hPart : isIdentifierPart c = true)
    (hStart : isIdentifierStart c = false) (cs : List Char) : IsOther (lexeme (c :: cs)).1 := by
  cases hDigit : c.isDigit with
  | true => exact isOther_of_isDigit hDigit cs
  | false =>
    have hWide : 0x80 ≤ c.toNat := by
      by_contra hAscii
      have hAsciiPart := isAsciiPart_iff.mpr ⟨hPart, by omega⟩
      rw [isIdentifierStart_of_isAsciiPart hAsciiPart hDigit] at hStart
      exact absurd hStart (by decide)
    have hNe {d : Char} (hAscii : d.toNat < 0x80) : c ≠ d := by
      rintro rfl
      omega
    have hRead : identifier? (c :: cs) = none := by
      have hAsciiPart : isAsciiPart c = false := by
        refine Bool.eq_false_of_not_eq_true fun h => ?_
        have hAscii := toNat_of_isAsciiPart h
        omega
      have hNone (fuel : Nat) : identifierFrom (fuel + 1) true (c :: cs) = ([], 0, false) := by
        rw [identifierFrom, identifierUnit?_of_ne (hNe (by decide)), if_pos rfl, hStart]
        rfl
      have hSpan : (c :: cs).span isAsciiPart = ([], c :: cs) := by
        rw [List.span_eq_takeWhile_dropWhile, List.takeWhile_cons_of_neg (by simp [hAsciiPart]),
          List.dropWhile_cons_of_neg (by simp [hAsciiPart])]
      unfold identifier?
      rw [show (c :: cs).span (fun c => c.isAlphanum || c == '$' || c == '_') = ([], c :: cs)
        from hSpan]
      simp [hWide, hNone]
    rw [lexeme, if_neg (by simp [hNe]), if_neg (by simp [hDigit, hNe]), if_neg (by simp [hNe]),
      mark?_of_le hWide]
    dsimp only
    rw [hRead]
    dsimp only
    rw [if_neg (by simp [hNe])]
    trivial

/-! ## Every word is a name -/

/-- A character of a name is allowed where it stands, also if it is written as an escape. -/
theorem allowed_of_identifierUnit? {first : Bool} {cs : List Char} {c : Char} {k : Nat} {e : Bool}
    (h : identifierUnit? first cs = some (c, k, e)) :
    (if first then isIdentifierStart c else isIdentifierPart c) = true := by
  unfold identifierUnit? at h
  grind

theorem isIdentifierPart_of_mem_identifierFrom {fuel : Nat} {cs : List Char} :
    ∀ c ∈ (identifierFrom fuel false cs).1, isIdentifierPart c = true := by
  induction fuel generalizing cs with
  | zero => simp [identifierFrom]
  | succ fuel ih =>
    rw [identifierFrom]
    cases hUnit : identifierUnit? false cs with
    | none => simp
    | some unit =>
      obtain ⟨c, k, e⟩ := unit
      exact List.forall_mem_cons.mpr ⟨allowed_of_identifierUnit? hUnit, ih⟩

theorem isName_identifierFrom {fuel : Nat} {cs : List Char}
    (h : (identifierFrom fuel true cs).1 ≠ []) : isName (identifierFrom fuel true cs).1 = true := by
  cases fuel with
  | zero => exact absurd rfl h
  | succ fuel =>
    rw [identifierFrom] at h ⊢
    cases hUnit : identifierUnit? true cs with
    | none => rw [hUnit] at h; exact absurd rfl h
    | some unit =>
      obtain ⟨c, k, e⟩ := unit
      exact Bool.and_eq_true_iff.mpr ⟨allowed_of_identifierUnit? hUnit,
        List.all_eq_true.mpr isIdentifierPart_of_mem_identifierFrom⟩

/-- What is read as an identifier is a name. -/
theorem isName_of_identifier? {cs : List Char} {name : String} {n : Nat} {escaped : Bool}
    (h : identifier? cs = some (name, n, escaped)) : isName name.toList = true := by
  obtain ⟨front, rest, hSpan⟩ : ∃ front rest, cs.span isAsciiPart = (front, rest) := ⟨_, _, rfl⟩
  have hFront : ∀ c ∈ front, isAsciiPart c = true := by
    intro c hc
    rw [List.span_eq_takeWhile_dropWhile, Prod.mk.injEq] at hSpan
    rw [← hSpan.1] at hc
    exact List.mem_takeWhile_imp hc
  unfold identifier? at h
  rw [show cs.span (fun c => c.isAlphanum || c == '$' || c == '_') = (front, rest) from hSpan] at h
  cases front with
  | nil =>
    have hWide (hSome : (identifierFrom (rest.length + 1) true rest).1 ≠ []) :
        isName (identifierFrom (rest.length + 1) true rest).1 = true :=
      isName_identifierFrom hSome
    grind [String.toList_ofList, List.isEmpty_iff]
  | cons c front =>
    -- The first character is no digit, and everything behind it may stand in a name.
    have hName (hDigit : c.isDigit = false) (more : List Char)
        (hMore : ∀ d ∈ more, isIdentifierPart d = true) : isName (c :: (front ++ more)) = true := by
      refine Bool.and_eq_true_iff.mpr
        ⟨isIdentifierStart_of_isAsciiPart (hFront c List.mem_cons_self) hDigit, ?_⟩
      rw [List.all_eq_true]
      intro d hd
      rcases List.mem_append.mp hd with hd | hd
      · exact (isAsciiPart_iff.mp (hFront d (List.mem_cons_of_mem c hd))).1
      · exact hMore d hd
    have hShort (hDigit : c.isDigit = false) : isName (c :: front) = true := by
      simpa using hName hDigit [] (by simp)
    have hLong (hDigit : c.isDigit = false) :
        isName (c :: (front ++ (identifierFrom (rest.length + 1) false rest).1)) = true :=
      hName hDigit _ isIdentifierPart_of_mem_identifierFrom
    grind [String.toList_ofList]

theorem number_ne_word (text : List Char) (name : String) (escaped : Bool) :
    lexeme.number text ≠ .word name escaped := by
  unfold lexeme.number
  split <;> simp

/-- **Every word that is read is a name**, also one that is written with escapes. -/
theorem isName_of_lexeme {cs : List Char} {name : String} {escaped : Bool}
    (h : (lexeme cs).1 = .word name escaped) : isName name.toList = true := by
  have hNumber := fun text => number_ne_word text name escaped
  have hIdentifier (n : Nat) (hRead : identifier? cs = some (name, n, escaped)) :
      isName name.toList = true := isName_of_identifier? hRead
  unfold lexeme at h
  grind

end PagePreview.Script

namespace PagePreview.Script.Literal

open Text Json

/-! ## Where the literal ends -/

theorem breakOff?_backslash {c : Char} (h : c ≠ '\r') (cs : List Char) :
    breakOff? '"' ('\\' :: c :: cs) =
      (breakOff? '"' cs).map fun p => ('\\' :: c :: p.1, p.2) := by
  rw [breakOff?]
  intro _ heq _
  exact h heq

theorem breakOff?_plain {c : Char} (hBackslash : c ≠ '\\') (hQuote : c ≠ '"') (hLine : c ≠ '\n')
    (hReturn : c ≠ '\r') (cs : List Char) :
    breakOff? '"' (c :: cs) = (breakOff? '"' cs).map fun p => (c :: p.1, p.2) := by
  rw [breakOff?]
  · simp [hQuote, hLine, hReturn]
  · intro _ heq _
    exact hBackslash heq
  · intro _ _ heq _
    exact hBackslash heq

/-- The digits of a control character are plain characters: they have a value. -/
theorem lower_ne {n : Nat} (h : n < 16) {c : Char}
    (hOther : c ∈ ['\\', '"', '\n', '\r']) : Hex.lower n ≠ c := by
  have hNone : ∀ d ∈ ['\\', '"', '\n', '\r'], Hex.value? d = none := by simp [Hex.value?]
  rintro rfl
  have hSome := Hex.value?_lower h
  rw [hNone _ hOther] at hSome
  exact absurd hSome (by simp)

/-- A character in quotes is taken as a whole, and nothing in it ends the literal. -/
theorem breakOff?_escaped (c : Char) (cs : List Char) :
    breakOff? '"' (Json.escaped c ++ cs) =
      (breakOff? '"' cs).map fun p => (Json.escaped c ++ p.1, p.2) := by
  unfold Json.escaped
  split
  case h_8 hQuote hBackslash _ _ hLine hReturn _ =>
    split
    · next hControl =>
      have hHigh : c.toNat / 16 < 16 := by omega
      have hLow : c.toNat % 16 < 16 := by omega
      have hPlain {n : Nat} (h : n < 16) (cs : List Char) :
          breakOff? '"' (Hex.lower n :: cs) =
            (breakOff? '"' cs).map fun p => (Hex.lower n :: p.1, p.2) :=
        breakOff?_plain (lower_ne h (by simp)) (lower_ne h (by simp)) (lower_ne h (by simp))
          (lower_ne h (by simp)) cs
      have hZero (cs : List Char) := hPlain (n := 0) (by omega) cs
      rw [show Hex.lower 0 = '0' by decide] at hZero
      rw [Json.digits_two hControl]
      simp only [List.cons_append, List.nil_append]
      rw [breakOff?_backslash (by decide), hZero, hZero, hPlain hHigh, hPlain hLow]
      simp [Option.map_map, Function.comp_def]
    · exact breakOff?_plain hBackslash hQuote hLine hReturn cs
  all_goals exact breakOff?_backslash (by decide) cs

theorem breakOff?_flatMap_escaped (cs rest : List Char) :
    breakOff? '"' (cs.flatMap Json.escaped ++ '"' :: rest) =
      some (cs.flatMap Json.escaped, rest) := by
  induction cs with
  | nil => simp [breakOff?]
  | cons c cs ih =>
    rw [List.flatMap_cons, List.append_assoc, breakOff?_escaped, ih]
    rfl

/-! ## What the literal stands for -/

/-- A character behind a backslash that stands for one value. -/
theorem cookFrom?_backslash {c : Char} {cs : List Char} {n : Nat} (taken : Nat)
    (h : escape? true c cs = some ([n], taken)) (fuel : Nat) :
    cookFrom? true (fuel + 1) ('\\' :: c :: cs) =
      (cookFrom? true fuel (cs.drop taken)).map (n :: ·) := by
  rw [cookFrom?, h]
  rfl

theorem cookFrom?_plain {c : Char} (hBackslash : c ≠ '\\') (hReturn : c ≠ '\r') (cs : List Char)
    (fuel : Nat) : cookFrom? true (fuel + 1) (c :: cs) =
      (cookFrom? true fuel cs).map (c.toNat :: ·) := by
  rw [cookFrom?]
  · simp [hReturn]
  · intro _ _ heq _
    exact hBackslash heq
  · intro _ heq _
    exact hReturn heq

/-- The four digits of a control character. -/
theorem escape?_control {n : Nat} (h : n < 0x20) (cs : List Char) :
    escape? true 'u' ('0' :: '0' :: (Hex.digits 2 n ++ cs)) = some ([n], 4) := by
  have hHigh : Hex.value? (Hex.lower (n / 16)) = some (n / 16) := Hex.value?_lower (by omega)
  have hLow : Hex.value? (Hex.lower (n % 16)) = some (n % 16) := Hex.value?_lower (by omega)
  have hRead : Hex.read? ['0', '0', Hex.lower (n / 16), Hex.lower (n % 16)] = some n := by
    simp [Hex.read?, hHigh, hLow, show Hex.value? '0' = some 0 by decide]
    omega
  have hNotHigh : isHigh n = false := by simp [isHigh]; omega
  rw [Json.digits_two h]
  simp [escape?, codePoint?, hRead, hNotHigh]

/-- **A character in quotes stands for itself.** -/
theorem cookFrom?_escaped (c : Char) (cs : List Char) (fuel : Nat) :
    cookFrom? true (fuel + 1) (Json.escaped c ++ cs) =
      (cookFrom? true fuel cs).map (c.toNat :: ·) := by
  unfold Json.escaped
  split
  case h_8 hQuote hBackslash _ _ _ hReturn _ =>
    split
    · next hControl =>
      have hTwo : (Hex.digits 2 c.toNat).length = 2 := by rw [Json.digits_two hControl]; rfl
      have hRead := cookFrom?_backslash _ (escape?_control hControl cs) fuel
      simp only [List.cons_append, List.nil_append]
      rw [hRead]
      simp [hTwo]
    · exact cookFrom?_plain hBackslash hReturn cs fuel
  all_goals exact cookFrom?_backslash 0 (by simp [escape?]) fuel

theorem cookFrom?_flatMap_escaped {cs : List Char} {fuel : Nat} (h : cs.length ≤ fuel) :
    cookFrom? true fuel (cs.flatMap Json.escaped) = some (cs.map Char.toNat) := by
  induction cs generalizing fuel with
  | nil => cases fuel <;> rfl
  | cons c cs ih =>
    rw [List.length_cons] at h
    obtain ⟨fuel, rfl⟩ : ∃ k, fuel = k + 1 := ⟨fuel - 1, by omega⟩
    rw [List.flatMap_cons, cookFrom?_escaped, ih (by omega)]
    rfl

theorem length_escaped_pos (c : Char) : 0 < (Json.escaped c).length := by
  unfold Json.escaped
  split
  case h_8 => split <;> simp
  all_goals simp

theorem length_le_length_flatMap_escaped (cs : List Char) :
    cs.length ≤ (cs.flatMap Json.escaped).length := by
  induction cs with
  | nil => simp
  | cons c cs ih =>
    have hPos := length_escaped_pos c
    rw [List.flatMap_cons, List.length_append, List.length_cons]
    omega

/-- No character is one half of a surrogate pair. -/
theorem not_isHalf_toNat (c : Char) : isHalf c.toNat = false := by
  have hValid : c.toNat < 0xD800 ∨ 0xDFFF < c.toNat ∧ c.toNat < 0x110000 := c.valid
  simp only [isHalf, isHigh, isLow, Bool.or_eq_false_iff, Bool.and_eq_false_iff,
    decide_eq_false_iff_not]
  omega

theorem ofUnits_map_toNat (cs : List Char) :
    ofUnits (cs.map Char.toNat) = (String.ofList cs, false) := by
  have hNone : (cs.map Char.toNat).any isHalf = false := by
    simp [not_isHalf_toNat]
  rw [ofUnits, hNone]
  simp [Char.ofNat_toNat, Function.comp_def]

end PagePreview.Script.Literal

namespace PagePreview.Script

open Literal

/-- **A text in quotes is a literal with that value**, whatever stands in it. -/
theorem lexeme_quote (cs rest : List Char) :
    lexeme (Json.quote cs ++ rest) =
      (.string (String.ofList cs) false, (Json.quote cs).length) := by
  have hRaw := breakOff?_flatMap_escaped cs rest
  have hUnits : cook? true (cs.flatMap Json.escaped) = some (cs.map Char.toNat) :=
    cookFrom?_flatMap_escaped (length_le_length_flatMap_escaped cs)
  rw [Json.quote, List.append_assoc, List.cons_append, List.singleton_append, lexeme]
  simp [hRaw, hUnits, ofUnits_map_toNat]

end PagePreview.Script
