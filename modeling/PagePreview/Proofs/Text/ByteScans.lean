import PagePreview.Proofs.Text.ByteOffsets

/-!
# Scanning a text by its bytes

A predicate on bytes that treats every byte of a character as a predicate on
characters treats the character stops between characters
(`scanWhile_of_standsAt`), a mark in ASCII is found between characters only
(`find_of_standsAt`), and so is the first place with a property of what
follows it (`seek_of_drop`).
-/

namespace PagePreview.Text

open Utf8

/-! ## First places -/

section Positions

variable {P : List UInt8 → Bool} {Q : List Char → Bool}

theorem positionWhere_append_of_forall {front : List UInt8}
    (h : ∀ b ∈ front, ∀ rest, P (b :: rest) = false) (bs : List UInt8) :
    positionWhere P (front ++ bs) = (positionWhere P bs).map (front.length + ·) := by
  induction front with
  | nil => simp
  | cons b front ih =>
      obtain ⟨hFirst, hRest⟩ := List.forall_mem_cons.mp h
      rw [List.cons_append, positionWhere, hFirst, if_neg Bool.false_ne_true, ih hRest,
        Option.map_map]
      congr 1
      funext k
      simp
      omega

theorem positionWhere_eq_none {bs : List UInt8} {room : Nat}
    (hShort : ∀ bs : List UInt8, bs.length ≤ room → P bs = false) (h : bs.length ≤ room) :
    positionWhere P bs = none := by
  induction bs with
  | nil => rfl
  | cons b bs ih =>
      rw [positionWhere, hShort _ h, if_neg Bool.false_ne_true, ih (by simp at h; omega)]
      rfl

/-- Cuts a text at the first place with a property. -/
def cutWhere (Q : List Char → Bool) : List Char → Option (List Char × List Char)
  | [] => none
  | c :: cs =>
    if Q (c :: cs) then some ([], c :: cs)
    else (cutWhere Q cs).map fun parts => (c :: parts.1, parts.2)

/-- Cuts a text at the first place with a property, or at its end. -/
def cutBefore (Q : List Char → Bool) (cs : List Char) : List Char × List Char :=
  (cutWhere Q cs).getD (cs, [])

theorem cutBefore_cons (c : Char) (cs : List Char) : cutBefore Q (c :: cs) =
    if Q (c :: cs) then ([], c :: cs) else (c :: (cutBefore Q cs).1, (cutBefore Q cs).2) := by
  rw [cutBefore, cutWhere]
  split
  · rfl
  · rw [cutBefore]
    cases cutWhere Q cs <;> rfl

/-- A predicate on the bytes behind a place treats places between characters as a predicate on the
text behind them, and no place inside a character has it. -/
structure AgreesBehind (P : List UInt8 → Bool) (Q : List Char → Bool) : Prop where
  place : ∀ c cs, P (encode (c :: cs)) = Q (c :: cs)
  inside : ∀ c : Char, 0x80 ≤ c.toNat → ∀ b ∈ String.utf8EncodeChar c, ∀ rest,
    P (b :: rest) = false

/-- **The first place among the bytes lies between characters.** -/
theorem positionWhere_encode (h : AgreesBehind P Q) (cs : List Char) :
    positionWhere P (encode cs) = (cutWhere Q cs).map fun parts => size parts.1 := by
  induction cs with
  | nil => rfl
  | cons c cs ih =>
      have hNext : (positionWhere P (encode cs)).map (c.utf8Size + ·) =
          ((cutWhere Q cs).map fun parts => (c :: parts.1, parts.2)).map
            fun parts => size parts.1 := by
        rw [ih, Option.map_map, Option.map_map]
        rfl
      have hFirst := h.place c cs
      by_cases hAscii : c.toNat < 0x80
      · rw [encode_cons_of_lt hAscii] at hFirst ⊢
        rw [positionWhere, hFirst, cutWhere]
        by_cases hHere : Q (c :: cs) = true
        · rw [if_pos hHere, if_pos hHere]
          rfl
        · rw [if_neg hHere, if_neg hHere, ← hNext, utf8Size_of_lt hAscii]
          congr 1
          funext k
          exact Nat.add_comm k 1
      · -- no byte of the character can be the first one of a place
        have hBytes := h.inside c (by omega)
        obtain ⟨b, more, hLead, hMem⟩ := exists_lead c
        have hHere : Q (c :: cs) = false := by
          rw [← hFirst, encode_cons, hLead]
          exact hBytes b hMem _
        rw [encode_cons, positionWhere_append_of_forall hBytes, String.length_utf8EncodeChar,
          hNext, cutWhere, hHere, if_neg Bool.false_ne_true]

end Positions

/-! ## Scanning -/

section Scan

variable {text cs : List Char} {i : Nat} {p : UInt8 → Bool} {q : Char → Bool}

theorem byteAt_of_drop {b : UInt8} {bs : List UInt8} (h : (encode text).drop i = b :: bs) :
    byteAt text i = .ok b ∧ (encode text).drop (i + 1) = bs ∧ i < size text := by
  have hByte : (encode text)[i]? = some b := by
    rw [← List.head?_drop, h]
    rfl
  refine ⟨?_, ?_, ?_⟩
  · rw [byteAt, byte?, hByte]
  · rw [← List.drop_drop, h]
    rfl
  · rw [← length_encode]
    exact (List.getElem?_eq_some_iff.mp hByte).1

/-- A test that looks at nothing but the bytes from its offset on finds the first place that it
accepts. -/
theorem seek_eq {room : Nat} {test : Nat → Except ScanFault Bool} {P : List UInt8 → Bool}
    (hTest : ∀ k bs, (encode text).drop k = bs → room < bs.length → test k = .ok (P bs))
    (hShort : ∀ bs : List UInt8, bs.length ≤ room → P bs = false) (hLe : i ≤ size text) :
    seek text room test i = .ok ((positionWhere P ((encode text).drop i)).map (i + ·)) := by
  generalize hBytes : (encode text).drop i = bytes
  have hLength := congrArg List.length hBytes
  rw [List.length_drop, length_encode] at hLength
  induction bytes generalizing i with
  | nil =>
      rw [List.length_nil] at hLength
      rw [seek, if_neg (by omega)]
      rfl
  | cons b bytes ih =>
      by_cases hRoom : i + room < size text
      · obtain ⟨-, hRest, hLess⟩ := byteAt_of_drop hBytes
        rw [List.length_cons] at hLength
        rw [seek, if_pos hRoom, hTest i _ hBytes (by rw [List.length_cons]; omega)]
        show (if P (b :: bytes) = true then pure (some i) else seek text room test (i + 1)) = _
        rw [positionWhere]
        by_cases hHere : P (b :: bytes) = true
        · rw [if_pos hHere, if_pos hHere]
          rfl
        · rw [if_neg hHere, if_neg hHere, ih hLess hRest (by omega), Option.map_map]
          congr 2
          funext k
          simp
          omega
      · -- the bytes that are left are too few for what is looked for
        rw [seek, if_neg hRoom, positionWhere_eq_none hShort (by omega)]
        rfl

/-- **A search ends between characters**, at the first place that is looked for or at the end. It
may begin inside a character. -/
theorem seek_of_drop {room : Nat} {test : Nat → Except ScanFault Bool} {P : List UInt8 → Bool}
    {Q : List Char → Bool} {front : List UInt8}
    (hTest : ∀ k bs, (encode text).drop k = bs → room < bs.length → test k = .ok (P bs))
    (hShort : ∀ bs : List UInt8, bs.length ≤ room → P bs = false) (hAgrees : AgreesBehind P Q)
    (hFront : ∀ b ∈ front, ∀ rest, P (b :: rest) = false) (hLe : i ≤ size text)
    (hBytes : (encode text).drop i = front ++ encode cs) :
    ∃ found, seek text room test i = .ok found ∧
      found.getD (size text) = i + front.length + size (cutBefore Q cs).1 := by
  refine ⟨_, seek_eq hTest hShort hLe, ?_⟩
  rw [hBytes, positionWhere_append_of_forall hFront, positionWhere_encode hAgrees, cutBefore]
  cases cutWhere Q cs with
  | some parts => exact (Nat.add_assoc ..).symm
  | none =>
      have hLength := congrArg List.length hBytes
      rw [List.length_drop, List.length_append, length_encode, length_encode] at hLength
      show size text = i + front.length + size cs
      omega

theorem positionWhere_head? (p : UInt8 → Bool) (bs : List UInt8) :
    (positionWhere (fun bs => bs.head?.any (!p ·)) bs).getD bs.length =
      (bs.takeWhile p).length := by
  induction bs with
  | nil => rfl
  | cons b bs ih =>
      rw [positionWhere]
      by_cases hPass : p b = true
      · rw [List.takeWhile_cons_of_pos hPass, List.length_cons, List.length_cons, ← ih,
          if_neg (by simp [hPass])]
        cases positionWhere (fun bs => bs.head?.any (!p ·)) bs <;> rfl
      · rw [List.takeWhile_cons_of_neg hPass, if_pos (by simp [hPass])]
        rfl

/-- **A scan stops between characters.** -/
theorem scanWhile_of_standsAt (hAgrees : Agrees p q) (h : StandsAt text i cs) :
    scanWhile text p i = .ok (i + size (cs.takeWhile q)) ∧
      slice text i (i + size (cs.takeWhile q)) = .ok (cs.takeWhile q) ∧
      StandsAt text (i + size (cs.takeWhile q)) (cs.dropWhile q) := by
  have hParts : StandsAt text i (cs.takeWhile q ++ cs.dropWhile q) := by
    rwa [List.takeWhile_append_dropWhile]
  refine ⟨?_, slice_of_standsAt hParts, hParts.append⟩
  have hTest : ∀ k bs, (encode text).drop k = bs → 0 < bs.length →
      (do return !p (← byteAt text k)) = Except.ok (bs.head?.any (!p ·)) := by
    intro k bs hBytes hLength
    obtain ⟨b, bs, rfl⟩ := List.exists_cons_of_length_pos hLength
    rw [(byteAt_of_drop hBytes).1]
    rfl
  have hShort : ∀ bs : List UInt8, bs.length ≤ 0 → (bs.head?.any (!p ·)) = false := by
    intro bs hLength
    rw [List.length_eq_zero_iff.mp (Nat.le_zero.mp hLength)]
    rfl
  have hCount := positionWhere_head? p (encode cs)
  rw [takeWhile_encode hAgrees, length_encode, length_encode] at hCount
  rw [scanWhile, seek_eq hTest hShort h.le, h.drop_encode, ← hCount]
  have hSize := h.add_size
  show Except.ok (((positionWhere _ (encode cs)).map (i + ·)).getD (max i (size text))) = _
  rw [Nat.max_eq_right h.le, ← hSize]
  cases positionWhere (fun bs => bs.head?.any (!p ·)) (encode cs) <;> rfl

end Scan

/-! ## Looking for marks -/

section Marks

variable {text cs : List Char} {i : Nat} {mark : List Char}

/-- A mark in ASCII stands in front of the bytes of a text if it stands in front of the text. -/
theorem isPrefixOf_encode (hMark : ∀ c ∈ mark, c.toNat < 0x80) (cs : List Char) :
    (encode mark).isPrefixOf (encode cs) = (dropFront? mark cs).isSome := by
  induction mark generalizing cs with
  | nil => cases cs <;> rfl
  | cons m mark ih =>
      obtain ⟨hFirst, hRest⟩ := List.forall_mem_cons.mp hMark
      rw [encode_cons_of_lt hFirst]
      cases cs with
      | nil => rfl
      | cons c cs =>
          obtain ⟨b, more, hBytes, hMem⟩ := exists_lead c
          have hSame : (b == byteOf m) = (c == m) := agrees_beq hFirst c b hMem
          rw [dropFront?]
          by_cases hEq : m = c
          · subst hEq
            rw [encode_cons_of_lt hFirst, List.isPrefixOf_cons_cons, beq_self_eq_true,
              Bool.true_and, ih hRest, if_pos rfl]
          · rw [encode_cons, hBytes, List.cons_append, List.isPrefixOf_cons_cons, Bool.beq_comm,
              hSame, beq_false_of_ne (Ne.symm hEq), Bool.false_and, if_neg hEq]
            rfl

theorem cutWhere_dropFront? {m : Char} (cs : List Char) :
    ((cutWhere (fun ds => (dropFront? (m :: mark) ds).isSome) cs).map fun parts => size parts.1) =
      (breakOn? (m :: mark) cs).map fun parts => size parts.1 := by
  have hNext : ∀ (c : Char) (parts : Option (List Char × List Char)),
      ((parts.map fun parts => (c :: parts.1, parts.2)).map fun parts => size parts.1) =
        (parts.map fun parts => size parts.1).map (c.utf8Size + ·) := by
    intro c parts
    rw [Option.map_map, Option.map_map]
    rfl
  induction cs with
  | nil => rfl
  | cons c cs ih =>
      rw [cutWhere, breakOn?]
      cases dropFront? (m :: mark) (c :: cs) with
      | some rest => rfl
      | none =>
          rw [Option.isSome_none, if_neg Bool.false_ne_true, hNext, ih]
          exact (hNext c _).symm

/-- **A mark in ASCII is found between characters**, where the text breaks on it. -/
theorem positionWhere_isPrefixOf {m : Char} (hMark : ∀ c ∈ m :: mark, c.toNat < 0x80)
    (cs : List Char) : positionWhere (encode (m :: mark)).isPrefixOf (encode cs) =
      (breakOn? (m :: mark) cs).map fun parts => size parts.1 := by
  have hFirst := (List.forall_mem_cons.mp hMark).1
  rw [← cutWhere_dropFront?]
  refine positionWhere_encode ⟨fun c cs => isPrefixOf_encode hMark (c :: cs), ?_⟩ cs
  intro c hLarge b hMem rest
  have hByte := le_of_mem_utf8EncodeChar hLarge hMem
  have hOther : (byteOf m == b) = false := by
    refine beq_false_of_ne ?_
    rintro rfl
    rw [byteOf, toNat_ofNat_of_lt (by omega)] at hByte
    omega
  rw [encode_cons_of_lt hFirst, List.isPrefixOf_cons_cons, hOther, Bool.false_and]

/-- Where a mark is found, the text breaks on it. -/
theorem find_of_standsAt {m : Char} (hMark : ∀ c ∈ m :: mark, c.toNat < 0x80)
    (h : StandsAt text i cs) : find text (encode (m :: mark)) i =
      .ok ((breakOn? (m :: mark) cs).map fun parts => i + size parts.1) := by
  have hNonempty : (encode (m :: mark)).isEmpty = false := by
    rw [encode_cons_of_lt (List.forall_mem_cons.mp hMark).1]
    rfl
  rw [find, if_neg (Nat.not_lt.mpr h.le), hNonempty]
  show (bytesBetween text i (size text) >>= fun bytes =>
    pure ((positionWhere (encode (m :: mark)).isPrefixOf bytes).map (i + ·))) = _
  rw [bytesBetween_of_standsAt h]
  show Except.ok ((positionWhere (encode (m :: mark)).isPrefixOf (encode cs)).map (i + ·)) = _
  rw [positionWhere_isPrefixOf hMark, Option.map_map]
  rfl

theorem hasBytesAt_of_standsAt (hMark : ∀ c ∈ mark, c.toNat < 0x80) (h : StandsAt text i cs) :
    hasBytesAt text i (encode mark) = (dropFront? mark cs).isSome := by
  rw [hasBytesAt, h.drop_encode, isPrefixOf_encode hMark]

end Marks

/-! ## Either case -/

theorem lowerByte_eq_self {b : UInt8} (h : ¬ (0x41 ≤ b.toNat ∧ b.toNat ≤ 0x5A)) :
    lowerByte b = b := by
  rw [lowerByte, if_neg]
  simpa only [Bool.and_eq_true, decide_eq_true_eq, UInt8.le_iff_toNat_le,
    UInt8.reduceToNat] using h

theorem lowerByte_byteOf {c : Char} (h : c.toNat < 0x80) :
    lowerByte (byteOf c) = byteOf c.toLower :=
  of_toNat_lt (P := fun c => lowerByte (byteOf c) = byteOf c.toLower)
    (by decide +kernel) h

theorem toNat_toLower_lt {c : Char} (h : c.toNat < 0x80) : c.toLower.toNat < 0x80 := by
  obtain hSame | ⟨-, hLower⟩ := toLower_cases c
  · rwa [hSame]
  · refine toNat_of_isAlphanum ?_
    rw [Char.isAlphanum, Char.isAlpha, hLower, Bool.or_true, Bool.true_or]

theorem toLower_of_le {c : Char} (h : 0x80 ≤ c.toNat) : c.toLower = c := by
  refine Char.toLower_eq_of_not_isUpper ?_
  simp only [Char.isUpper, ge_iff_le, UInt32.le_iff_toNat_le, Char.reduceVal, UInt32.reduceToNat,
    decide_eq_true_eq]
  show ¬ (65 ≤ c.toNat ∧ c.toNat ≤ 90)
  omega

theorem startsIgnoringCase_cons (f b : UInt8) (front bytes : List UInt8) :
    startsIgnoringCase (f :: front) (b :: bytes) =
      (lowerByte b == lowerByte f && startsIgnoringCase front bytes) := rfl

theorem lowerByte_beq {f c : Char} (hAscii : f.toNat < 0x80) (hLower : f.toLower = f) {b : UInt8}
    (hMem : b ∈ String.utf8EncodeChar c) :
    (lowerByte b == lowerByte (byteOf f)) = (f == c.toLower) := by
  rw [lowerByte_byteOf hAscii, hLower]
  by_cases hc : c.toNat < 0x80
  · rw [utf8EncodeChar_of_lt hc, List.mem_singleton] at hMem
    rw [hMem, show UInt8.ofNat c.toNat = byteOf c from rfl, lowerByte_byteOf hc, Bool.eq_iff_iff,
      beq_iff_eq, beq_iff_eq, byteOf_inj (toNat_toLower_lt hc) hAscii]
    exact eq_comm
  · have hLarge := le_of_mem_utf8EncodeChar (by omega) hMem
    have hSame : lowerByte b = b := lowerByte_eq_self (by omega)
    have hByte : b ≠ byteOf f := by
      rintro rfl
      rw [byteOf, toNat_ofNat_of_lt (by omega)] at hLarge
      omega
    have hChar : f ≠ c.toLower := by
      rw [toLower_of_le (by omega)]
      rintro rfl
      exact hc hAscii
    rw [hSame, beq_false_of_ne hByte, beq_false_of_ne hChar]

/-- Bytes are compared in either case as the characters are. -/
theorem startsIgnoringCase_encode {front : List Char}
    (hFront : ∀ c ∈ front, c.toNat < 0x80 ∧ c.toLower = c) (cs : List Char) :
    startsIgnoringCase (encode front) (encode cs) = startsWithNoCase front cs := by
  induction front generalizing cs with
  | nil => cases cs <;> rfl
  | cons f front ih =>
      obtain ⟨⟨hAscii, hLower⟩, hRest⟩ := List.forall_mem_cons.mp hFront
      rw [encode_cons_of_lt hAscii]
      cases cs with
      | nil => rfl
      | cons c cs =>
          obtain ⟨b, more, hBytes, hMem⟩ := exists_lead c
          have hFirst := lowerByte_beq hAscii hLower hMem
          rw [startsWithNoCase, ← hFirst, encode_cons, hBytes, List.cons_append,
            startsIgnoringCase_cons]
          by_cases hSame : (f == c.toLower) = true
          · -- the lower case of a character above 127 is not in ASCII
            have hc : c.toNat < 0x80 := by
              by_contra hLarge
              rw [toLower_of_le (by omega), beq_iff_eq] at hSame
              exact hLarge (hSame ▸ hAscii)
            rw [utf8EncodeChar_of_lt hc, List.cons.injEq] at hBytes
            rw [← hBytes.2, List.nil_append, ih hRest]
          · rw [hFirst, Bool.eq_false_of_not_eq_true hSame, Bool.false_and, Bool.false_and]

/-- What is no letter is the same in either case. -/
theorem lowerByte_beq_of_sign {d : Char} (h : d = '<' ∨ d = '/') (b : UInt8) :
    (lowerByte b == lowerByte (byteOf d)) = (b == byteOf d) := by
  have hSign : (byteOf d).toNat < 0x41 := by rcases h with rfl | rfl <;> decide
  rw [lowerByte_eq_self (b := byteOf d) (by omega), Bool.eq_iff_iff, beq_iff_eq, beq_iff_eq]
  by_cases hUpper : 0x41 ≤ b.toNat ∧ b.toNat ≤ 0x5A
  · -- a small letter stands behind all signs, and so does the capital one
    have hLetter : lowerByte b = b + 0x20 := by
      rw [lowerByte, if_pos]
      simpa only [Bool.and_eq_true, decide_eq_true_eq, UInt8.le_iff_toNat_le,
        UInt8.reduceToNat] using hUpper
    simp only [hLetter, ← UInt8.toNat_inj, UInt8.toNat_add, UInt8.reduceToNat]
    omega
  · rw [lowerByte_eq_self hUpper]

theorem startsIgnoringCase_of_length_lt {name bs : List UInt8} (h : bs.length < name.length) :
    startsIgnoringCase name bs = false := by
  refine beq_false_of_ne fun hSame => ?_
  have hLength := congrArg List.length hSame
  rw [List.length_map, List.length_map, List.length_take] at hLength
  omega

end PagePreview.Text
