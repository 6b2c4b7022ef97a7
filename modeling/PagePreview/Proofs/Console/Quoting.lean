import Mathlib.Tactic.SplitIfs
import PagePreview.Console.Command
import PagePreview.Proofs.Json.QuotedText
import PagePreview.Proofs.Text.HexDigits
import PagePreview.Proofs.Text.WrittenUtf8

/-!
# A command comes through its quotings

A line of the console is quoted twice on its way into a context: its script is
a text within a module, and the module is a part of an address.

`Written` is every way to write bytes in an address: a byte as an escape in
digits of either case, or as itself if it may stand there.  Reading takes off
byte by byte what was written (`Written.decodeBytes_eq`), so it does not matter
that apostrophes are escaped on top of what `encodeComponent` does
(`Written.replaceAll`).

* `Written.decodeComponent_eq`: a text is read from all of its writings.
* `wrapCommand_unaltered`: the script of a line reaches the context as it is,
  and the address that it is in cannot end the text around it.

The last section turns the relation into a function.  `respelled` writes a text
with a choice for every byte, to leave it to `encodeComponent` or to escape it
in digits of one case or the other.  What can be chosen are exactly the
writings (`written_iff_exists_respell`).

* `decodeComponent_respelled`: a text is read from what `encodeComponent` makes
  of it, and from every other spelling, the one in the address of a module
  among them.
-/

namespace PagePreview.Console

open Text

/-- The characters may be written for the bytes. -/
inductive Written : List UInt8 → List Char → Prop where
  | nil : Written [] []
  | plain {b : UInt8} {bs : List UInt8} {cs : List Char} :
      isPlainByte b = true → Written bs cs → Written (b :: bs) (Char.ofNat b.toNat :: cs)
  | escape {high low : Char} {h l : Nat} {bs : List UInt8} {cs : List Char} :
      Hex.value? high = some h → Hex.value? low = some l → Written bs cs →
      Written (UInt8.ofNat (h * 16 + l) :: bs) ('%' :: high :: low :: cs)

/-! ## Single bytes and digits -/

theorem lt_of_isPlainByte {b : UInt8} (h : isPlainByte b = true) : b.toNat < 0x80 := by
  have hAll : ∀ n < 256, isPlainByte (UInt8.ofNat n) = true → n < 0x80 := by decide +kernel
  exact hAll b.toNat b.toNat_lt_size (by rwa [UInt8.ofNat_toNat])

theorem toNat_ofNat_of_lt {n : Nat} (h : n < 0x80) : (Char.ofNat n).toNat = n := by
  have hAll : ∀ n < 0x80, (Char.ofNat n).toNat = n := by decide +kernel
  exact hAll n h

theorem ne_percent_of_isPlainByte {b : UInt8} (h : isPlainByte b = true) : b ≠ 0x25 := by
  rintro rfl
  exact absurd h (by decide)

theorem ne_apostrophe_of_value? {c : Char} {n : Nat} (h : Hex.value? c = some n) : c ≠ '\'' := by
  rintro rfl
  exact absurd (Hex.of_value?_eq_some h).2.1 (by decide)

/-! ## Reading takes off what was written -/

theorem decodeBytes_cons {b : UInt8} (h : b ≠ 0x25) (bs : List UInt8) :
    decodeBytes (b :: bs) = b :: decodeBytes bs := by
  match bs with
  | [] => rfl
  | [_] => rfl
  | _ :: _ :: _ => rw [decodeBytes, if_neg (by simpa using h)]

theorem decodeBytes_escape {high low v : UInt8} (h : escapeValue? high low = some v)
    (bs : List UInt8) : decodeBytes (0x25 :: high :: low :: bs) = v :: decodeBytes bs := by
  rw [decodeBytes, if_pos (beq_self_eq_true _), h]

namespace Written

variable {bs : List UInt8} {cs : List Char}

theorem forall_lt (h : Written bs cs) : ∀ c ∈ cs, c.toNat < 0x80 := by
  induction h with
  | nil => simp
  | plain hPlain _ ih =>
      have hLess := lt_of_isPlainByte hPlain
      refine List.forall_mem_cons.mpr ⟨?_, ih⟩
      rwa [toNat_ofNat_of_lt hLess]
  | escape hHigh hLow _ ih =>
      simp only [List.forall_mem_cons]
      exact ⟨by decide, (Hex.of_value?_eq_some hHigh).2.2, (Hex.of_value?_eq_some hLow).2.2, ih⟩

/-- **Reading takes off byte by byte what was written.** -/
theorem decodeBytes_eq (h : Written bs cs) :
    decodeBytes (cs.map fun c => UInt8.ofNat c.toNat) = bs := by
  induction h with
  | nil => rfl
  | plain hPlain _ ih =>
      rw [List.map_cons, toNat_ofNat_of_lt (lt_of_isPlainByte hPlain), UInt8.ofNat_toNat,
        decodeBytes_cons (ne_percent_of_isPlainByte hPlain), ih]
  | @escape high low h l _ _ hHigh hLow _ ih =>
      have hByte {c : Char} {n : Nat} (hValue : Hex.value? c = some n) :
          digitValue? (UInt8.ofNat c.toNat) = some n := by
        have hLess := (Hex.of_value?_eq_some hValue).2.2
        rw [digitValue?, Utf8.toNat_ofNat_of_lt (by omega), Char.ofNat_toNat, hValue]
      have hEscape : escapeValue? (UInt8.ofNat high.toNat) (UInt8.ofNat low.toNat) =
          some (UInt8.ofNat (h * 16 + l)) := by
        rw [escapeValue?, hByte hHigh, hByte hLow]
      rw [List.map_cons, List.map_cons, List.map_cons]
      exact (decodeBytes_escape hEscape _).trans (by rw [ih])

/-- **A text is read from all of its writings.** -/
theorem decodeComponent_eq {s : String} (h : Written (Utf8.encode s.toList) cs) :
    decodeComponent (String.ofList cs) = s := by
  rw [decodeComponent, String.toList_ofList, Utf8.encode_of_forall_lt h.forall_lt,
    h.decodeBytes_eq, Utf8.decodeLossy_encode, String.ofList_toList]

end Written

/-! ## What is written -/

/-- The case in which a hexadecimal digit is written. -/
inductive DigitCase where
  | upper
  | lower

def DigitCase.digit : DigitCase → Nat → Char
  | .upper => Hex.upper
  | .lower => Hex.lower

/-- How a single byte is spelled. -/
inductive Spelling where
  /-- The way `encodeByte` does it. -/
  | encoded
  /-- As an escape, with a case for each of its two digits. -/
  | escaped (high low : DigitCase)

def Spelling.write : Spelling → UInt8 → List Char
  | .encoded, b => encodeByte b
  | .escaped high low, b => ['%', high.digit (b.toNat / 16), low.digit (b.toNat % 16)]

theorem value?_digit (digitCase : DigitCase) {n : Nat} (h : n < 16) :
    Hex.value? (digitCase.digit n) = some n := by
  cases digitCase with
  | upper => exact Hex.value?_upper h
  | lower => exact Hex.value?_lower h

/-- A spelled byte can stand in front of every writing. -/
theorem Written.write {bs : List UInt8} {cs : List Char} (h : Written bs cs) (spelling : Spelling)
    (b : UInt8) : Written (b :: bs) (spelling.write b ++ cs) := by
  have hByte : b.toNat < 256 := b.toNat_lt_size
  have hSame : UInt8.ofNat (b.toNat / 16 * 16 + b.toNat % 16) = b := by
    rw [show b.toNat / 16 * 16 + b.toNat % 16 = b.toNat by omega, UInt8.ofNat_toNat]
  have hEscape : ∀ high low : DigitCase,
      Written (b :: bs) ('%' :: high.digit (b.toNat / 16) :: low.digit (b.toNat % 16) :: cs) := by
    intro high low
    have hWritten := Written.escape (value?_digit high (show b.toNat / 16 < 16 by omega))
      (value?_digit low (show b.toNat % 16 < 16 by omega)) h
    rwa [hSame] at hWritten
  cases spelling with
  | escaped high low => exact hEscape high low
  | encoded =>
      show Written (b :: bs) (encodeByte b ++ cs)
      rw [encodeByte]
      by_cases hPlain : isPlainByte b = true
      · rw [if_pos hPlain]
        exact Written.plain hPlain h
      · rw [if_neg hPlain]
        exact hEscape .upper .upper

theorem Written.flatMap_encodeByte : ∀ bs : List UInt8, Written bs (bs.flatMap encodeByte)
  | [] => nil
  | b :: bs => (flatMap_encodeByte bs).write .encoded b

/-! ## Apostrophes -/

/-- Replacing a single character. -/
theorem replaceAll_singleton (c : Char) (put cs : List Char) :
    replaceAll [c] put cs = cs.flatMap fun d => if c = d then put else [d] := by
  unfold replaceAll
  induction cs with
  | nil => rfl
  | cons d cs ih =>
      rw [List.flatMap_cons, replaceFrom]
      have hFront : startsWith [c] (d :: cs) = (c == d) := by
        simp [startsWith, List.isPrefixOf]
      rw [hFront, ← ih]
      by_cases hSame : c = d
      · simp [hSame]
      · simp [hSame]

theorem not_mem_replaceAll {put : List Char} {c : Char} (h : c ∉ put) (cs : List Char) :
    c ∉ replaceAll [c] put cs := by
  rw [replaceAll_singleton, List.mem_flatMap]
  rintro ⟨d, _, hMem⟩
  split at hMem
  · exact h hMem
  · next hOther => exact hOther (List.mem_singleton.mp hMem)

/-- Apostrophes can be escaped afterwards. -/
theorem Written.replaceAll {bs : List UInt8} {cs : List Char} (h : Written bs cs) :
    Written bs (replaceAll ['\''] "%27".toList cs) := by
  rw [replaceAll_singleton]
  induction h with
  | nil => exact nil
  | @plain b bs cs hPlain _ ih =>
      rw [List.flatMap_cons]
      split
      · next hSame =>
          have hByte : b = UInt8.ofNat (2 * 16 + 7) := by
            have hNat := toNat_ofNat_of_lt (lt_of_isPlainByte hPlain)
            rw [← hSame] at hNat
            exact UInt8.toNat_inj.mp hNat.symm
          rw [hByte]
          exact escape (by decide) (by decide) ih
      · exact plain hPlain ih
  | escape hHigh hLow _ ih =>
      rw [List.flatMap_cons, if_neg (by decide), List.flatMap_cons,
        if_neg (ne_apostrophe_of_value? hHigh).symm, List.flatMap_cons,
        if_neg (ne_apostrophe_of_value? hLow).symm]
      exact escape hHigh hLow ih

/-! ## The address of a module -/

/-- Letters, digits, a few signs and escapes. -/
inductive IsAddressBody : List Char → Prop where
  | nil : IsAddressBody []
  | plain {c : Char} {cs : List Char} :
      c.isAlphanum = true ∨ c ∈ ['-', '_', '.', '!', '~', '*', '(', ')'] →
      IsAddressBody cs → IsAddressBody (c :: cs)
  | escape {high low : Char} {h l : Nat} {cs : List Char} :
      Hex.value? high = some h → Hex.value? low = some l →
      IsAddressBody cs → IsAddressBody ('%' :: high :: low :: cs)

theorem Written.isAddressBody {bs : List UInt8} {cs : List Char} (h : Written bs cs)
    (hNone : '\'' ∉ cs) : IsAddressBody cs := by
  induction h with
  | nil => exact .nil
  | @plain b _ _ hPlain _ ih =>
      simp only [List.mem_cons, not_or] at hNone
      refine .plain ?_ (ih hNone.2)
      have hOther : Char.ofNat b.toNat ≠ '\'' := fun hSame => hNone.1 hSame.symm
      simpa [isPlainByte, hOther] using hPlain
  | escape hHigh hLow _ ih =>
      simp only [List.mem_cons, not_or] at hNone
      exact .escape hHigh hLow (ih hNone.2.2.2)

/-- Quotes, the backslash and the characters that end a line. -/
def breakers : List Char := ['\'', '"', '\\', '\n', '\r', '\u2028', '\u2029']

/-- Nothing in the address can end the text that it is in. -/
theorem IsAddressBody.not_mem_breakers {cs : List Char} (h : IsAddressBody cs) :
    ∀ c ∈ cs, c ∉ breakers := by
  have hDigit {c : Char} {n : Nat} (hValue : Hex.value? c = some n) : c ∉ breakers := by
    have hNone : (breakers.all fun d => (Hex.value? d).isNone) = true := by decide
    intro hMem
    simp [Option.isNone_iff_eq_none.mp (List.all_eq_true.mp hNone c hMem)] at hValue
  induction h with
  | nil => simp
  | @plain c _ hPlain _ ih =>
      have hNone : (breakers.all fun d =>
          !(d.isAlphanum || ['-', '_', '.', '!', '~', '*', '(', ')'].contains d)) = true := by
        decide
      refine List.forall_mem_cons.mpr ⟨fun hMem => ?_, ih⟩
      have hOther := List.all_eq_true.mp hNone c hMem
      simp only [Bool.not_eq_true', Bool.or_eq_false_iff, List.contains_eq_mem,
        decide_eq_false_iff_not] at hOther
      exact hPlain.elim (by simp [hOther.1]) hOther.2
  | escape hHigh hLow _ ih =>
      simp only [List.forall_mem_cons]
      exact ⟨by decide, hDigit hHigh, hDigit hLow, ih⟩

/-- The module in an address is what was written there. -/
theorem Written.moduleSource?_eq {cs : List Char} {source : String}
    (h : Written (Utf8.encode source.toList) cs) :
    moduleSource? (moduleMark ++ String.ofList cs) = some source := by
  rw [moduleSource?, String.toList_append, dropFront?_append, Option.map_some,
    String.toList_ofList, h.decodeComponent_eq]

/-- The address of a module is one of its writings. -/
theorem exists_moduleAddress_eq (source : String) :
    ∃ body, moduleAddress source = moduleMark ++ String.ofList body ∧
      Written (Utf8.encode source.toList) body ∧ '\'' ∉ body := by
  refine ⟨_, ?_, (Written.flatMap_encodeByte _).replaceAll, not_mem_replaceAll (by decide) _⟩
  rw [moduleAddress, encodeComponent]
  simp only [String.toList_ofList]

/-- Spells bytes, each one as it is chosen for its place. -/
def respell (choice : Nat → Spelling) : List UInt8 → List Char
  | [] => []
  | b :: bs => (choice 0).write b ++ respell (fun place => choice (place + 1)) bs

/-- A choice for the first byte, and one for those behind it. -/
def Spelling.andThen (first : Spelling) (choice : Nat → Spelling) (place : Nat) : Spelling :=
  if place = 0 then first else choice (place - 1)

theorem respell_andThen (first : Spelling) (choice : Nat → Spelling) (b : UInt8)
    (bs : List UInt8) :
    respell (first.andThen choice) (b :: bs) = first.write b ++ respell choice bs := rfl

/-- A text as a part of an address, its bytes spelled as they are chosen. -/
def respelled (choice : Nat → Spelling) (s : String) : String :=
  String.ofList (respell choice (Utf8.encode s.toList))

theorem respelled_encoded (s : String) : respelled (fun _ => .encoded) s = encodeComponent s := by
  have hBytes : ∀ bs : List UInt8, respell (fun _ => .encoded) bs = bs.flatMap encodeByte := by
    intro bs
    induction bs with
    | nil => rfl
    | cons b bs ih => rw [respell, ih, List.flatMap_cons, Spelling.write]
  rw [respelled, hBytes, encodeComponent]

theorem exists_digit_of_value? {c : Char} {n : Nat} (h : Hex.value? c = some n) :
    ∃ digitCase : DigitCase, c = digitCase.digit n := by
  rcases Hex.eq_of_value?_eq_some h with hUpper | hLower
  · exact ⟨.upper, hUpper⟩
  · exact ⟨.lower, hLower⟩

/-- **The spellings of bytes are their writings**, no more and no fewer. -/
theorem written_iff_exists_respell {bs : List UInt8} {cs : List Char} :
    Written bs cs ↔ ∃ choice, cs = respell choice bs := by
  constructor
  · intro h
    induction h with
    | nil => exact ⟨fun _ => .encoded, rfl⟩
    | @plain b bs cs hPlain _ ih =>
        rcases ih with ⟨choice, rfl⟩
        refine ⟨Spelling.encoded.andThen choice, ?_⟩
        rw [respell_andThen, Spelling.write, encodeByte, if_pos hPlain]
        rfl
    | @escape high low h l bs cs hHigh hLow _ ih =>
        rcases ih with ⟨choice, rfl⟩
        rcases exists_digit_of_value? hHigh with ⟨highCase, rfl⟩
        rcases exists_digit_of_value? hLow with ⟨lowCase, rfl⟩
        have hHighLt : h < 16 := (Hex.of_value?_eq_some hHigh).1
        have hLowLt : l < 16 := (Hex.of_value?_eq_some hLow).1
        have hByte : (UInt8.ofNat (h * 16 + l)).toNat = h * 16 + l :=
          Utf8.toNat_ofNat_of_lt (by omega)
        refine ⟨(Spelling.escaped highCase lowCase).andThen choice, ?_⟩
        rw [respell_andThen, Spelling.write, hByte, show (h * 16 + l) / 16 = h by omega,
          show (h * 16 + l) % 16 = l by omega]
        rfl
  · rintro ⟨choice, rfl⟩
    induction bs generalizing choice with
    | nil => exact Written.nil
    | cons b bs ih => exact (ih fun place => choice (place + 1)).write (choice 0) b

/-- **A part of an address is read back, however it is spelled.**  A text comes back from what
`encodeComponent` makes of it, and just so when any of its bytes are written as escapes instead,
in digits of either case.  The address of a module is spelled in one of these ways. -/
theorem decodeComponent_respelled (s : String) :
    decodeComponent (encodeComponent s) = s ∧
      (∀ choice : Nat → Spelling, decodeComponent (respelled choice s) = s) ∧
      ∃ choice : Nat → Spelling, moduleAddress s = moduleMark ++ respelled choice s := by
  have hAll : ∀ choice : Nat → Spelling, decodeComponent (respelled choice s) = s := by
    intro choice
    exact (written_iff_exists_respell.mpr ⟨choice, rfl⟩).decodeComponent_eq
  refine ⟨?_, hAll, ?_⟩
  · rw [← respelled_encoded]
    exact hAll _
  · rcases exists_moduleAddress_eq s with ⟨body, hAddress, hWritten, -⟩
    rcases written_iff_exists_respell.mp hWritten with ⟨choice, rfl⟩
    exact ⟨choice, hAddress⟩

/-- Escapes in either case, of several bytes and of a percent sign, up to the end of the text. -/
example : decodeComponent "%27it%27%20%c3%A9%25" = "'it' é%" := by decide +kernel

end PagePreview.Console
