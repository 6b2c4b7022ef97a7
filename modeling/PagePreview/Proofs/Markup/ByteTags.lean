import PagePreview.Proofs.Markup.ByteReader
import PagePreview.Proofs.Text.ByteScans

/-!
# Tags, declarations and texts by byte offsets

The readers that work with byte offsets find what the readers of characters
find, and they commit no fault.

A text ends where something opens, and a raw text where its end tag begins.
The readers look for such a place byte by byte.  They find one between
characters, and it is the one at which `plainText` and `rawText` cut.
-/

namespace PagePreview.Markup

open Text Utf8

/-! ## Classes of bytes -/

theorem agrees_isBlankByte : Agrees isBlankByte isAsciiBlank :=
  ((((agrees_beq (by decide)).or (agrees_beq (by decide))).or (agrees_beq (by decide))).or
    (agrees_beq (by decide))).or (agrees_beq (by decide))

theorem agrees_isLetterByte : Agrees isLetterByte isAsciiLetter := by
  -- capital letters are told by one conjunction, small ones and digits by two comparisons
  have hLetter : isAsciiLetter =
      fun c => (decide ('A'.val ≤ c.val) && decide (c.val ≤ 'Z'.val)) || c.isLower :=
    funext fun c => by rw [isAsciiLetter, Char.isAlpha, Char.isUpper, Bool.decide_and]
  rw [hLetter]
  exact (agrees_between 'A' 'Z' (by decide) (by decide)).or
    (agrees_between 'a' 'z' (by decide) (by decide))

theorem agrees_isAlnumByte : Agrees isAlnumByte Char.isAlphanum :=
  agrees_isLetterByte.or (agrees_between '0' '9' (by decide) (by decide))

theorem agrees_isNameByte : Agrees isNameByte isNameChar :=
  ((agrees_isAlnumByte.or (agrees_beq (by decide))).or (agrees_beq (by decide))).or
    (agrees_beq (by decide))

theorem agrees_isAttributeByte : Agrees isAttributeByte isAttributeChar :=
  (((agrees_isBlankByte.or (agrees_beq (by decide))).or (agrees_beq (by decide))).or
    (agrees_beq (by decide))).not

theorem agrees_isBareValueByte : Agrees isBareValueByte isBareValueChar :=
  (agrees_isBlankByte.or (agrees_beq (by decide))).not

theorem agrees_opensMarkupByte : Agrees opensMarkupByte opensMarkup :=
  ((agrees_isLetterByte.or (agrees_beq (by decide))).or (agrees_beq (by decide))).or
    (agrees_beq (by decide))

/-! ## Values of attributes -/

/-- A reader of offsets finds what a reader of characters finds, and it stops where what that one
leaves begins. -/
inductive Tracks {α : Type} (text : List Char) :
    Option (α × Nat) → Option (α × List Char) → Prop where
  | none : Tracks text none none
  | some {a : α} {j : Nat} {rest : List Char} (h : StandsAt text j rest) :
    Tracks text (some (a, j)) (some (a, rest))

theorem breakOn?_singleton (m : Char) (cs : List Char) :
    breakOn? [m] cs = match cs.dropWhile (· != m) with
      | [] => none
      | _ :: rest => some (cs.takeWhile (· != m), rest) := by
  induction cs with
  | nil => rfl
  | cons c cs ih =>
      rw [breakOn?, dropFront?]
      by_cases hEq : m = c
      · subst hEq
        rw [if_pos rfl, List.dropWhile_cons_of_neg (by simp), List.takeWhile_cons_of_neg (by simp)]
        rfl
      · have hNe : (c != m) = true := bne_iff_ne.mpr (Ne.symm hEq)
        have hDrop : (c :: cs).dropWhile (· != m) = cs.dropWhile (· != m) :=
          List.dropWhile_cons_of_pos hNe
        have hTake : (c :: cs).takeWhile (· != m) = c :: cs.takeWhile (· != m) :=
          List.takeWhile_cons_of_pos hNe
        rw [if_neg hEq, hDrop, hTake, ih]
        cases cs.dropWhile (· != m) <;> rfl

section Tags

variable {text cs : List Char} {i : Nat}

theorem skipBlanks_of_standsAt (h : StandsAt text i cs) :
    ∃ j, skipBlanks text i = .ok j ∧ StandsAt text j (dropBlanks cs) := by
  obtain ⟨hScan, -, hNext⟩ := scanWhile_of_standsAt agrees_isBlankByte h
  exact ⟨_, hScan, hNext⟩

theorem not_size_le_of_standsAt {c : Char} (h : StandsAt text i (c :: cs)) : ¬ size text ≤ i :=
  Nat.not_le.mpr (h.lt_size_iff.mpr (List.cons_ne_nil c cs))

theorem size_le_of_standsAt_nil (h : StandsAt text i []) : size text ≤ i :=
  Nat.le_of_eq h.add_size.symm

/-- A value in quotes ends at the next quote of its kind. -/
theorem valueAt_of_quote {c : Char} (hQuote : (c == '"' || c == '\'') = true)
    (h : StandsAt text i (c :: cs)) :
    ∃ r, valueAt text i = .ok r ∧ Tracks text r (attributeValue? (c :: cs)) := by
  obtain ⟨b, hMem, hByte⟩ := byteAt_of_standsAt h
  have hSame : (b == byteOf '"' || b == byteOf '\'') = (c == '"' || c == '\'') :=
    ((agrees_beq (by decide)).or (agrees_beq (by decide))) c b hMem
  have hAscii : c.toNat < 0x80 := by
    simp only [Bool.or_eq_true, beq_iff_eq] at hQuote
    rcases hQuote with rfl | rfl <;> decide
  rw [utf8EncodeChar_of_lt hAscii, List.mem_singleton] at hMem
  have hMark : ∀ d ∈ [c], d.toNat < 0x80 := List.forall_mem_singleton.mpr hAscii
  have hFind : positionWhere [b].isPrefixOf (encode cs) =
      (breakOn? [c] cs).map fun parts => size parts.1 := by
    rw [hMem]
    exact (encode_cons_of_lt hAscii []) ▸ positionWhere_isPrefixOf hMark cs
  have hValue : attributeValue? (c :: cs) = breakOn? [c] cs := by
    cases hDrop : cs.dropWhile (· != c) <;>
      simp only [attributeValue?, if_pos hQuote, breakOn?_singleton, hDrop]
  have hTail := h.tail hAscii
  rw [valueAt, if_neg (not_size_le_of_standsAt h), hByte, ok_bind, hSame, if_pos hQuote,
    bytesBetween_of_standsAt hTail, ok_bind, hFind, hValue]
  cases hBreak : breakOn? [c] cs with
  | none => exact ⟨_, rfl, .none⟩
  | some parts =>
      obtain ⟨value, after⟩ := parts
      have hParts : StandsAt text (i + 1) (value ++ ([c] ++ after)) := by
        rwa [← List.append_assoc, ← eq_append_of_breakOn? hBreak]
      rw [Option.map_some]
      dsimp only
      rw [slice_of_standsAt hParts, ok_bind]
      exact ⟨_, rfl, .some (hParts.append.tail hAscii)⟩

theorem valueAt_of_standsAt (h : StandsAt text i cs) :
    ∃ r, valueAt text i = .ok r ∧ Tracks text r (attributeValue? cs) := by
  cases cs with
  | nil =>
      rw [valueAt, if_pos (size_le_of_standsAt_nil h)]
      exact ⟨_, rfl, .none⟩
  | cons c cs =>
      by_cases hQuote : (c == '"' || c == '\'') = true
      · exact valueAt_of_quote hQuote h
      · obtain ⟨b, hMem, hByte⟩ := byteAt_of_standsAt h
        have hSame : (b == byteOf '"' || b == byteOf '\'') = (c == '"' || c == '\'') :=
          ((agrees_beq (by decide)).or (agrees_beq (by decide))) c b hMem
        obtain ⟨hScan, hSlice, hNext⟩ := scanWhile_of_standsAt agrees_isBareValueByte h
        rw [valueAt, if_neg (not_size_le_of_standsAt h), hByte, ok_bind, hSame, if_neg hQuote,
          hScan, ok_bind, hSlice, ok_bind, attributeValue?, if_neg hQuote]
        exact ⟨_, rfl, .some hNext⟩

theorem any_beq_iff {o : Option Char} {d : Char} : o.any (· == d) = true ↔ o = some d := by
  cases o <;> simp

theorem valueAfterName?_of_head? {ds : List Char} (hRest : dropBlanks cs = ds)
    (hHead : ds.head? ≠ some '=') : valueAfterName? cs = some ([], ds) := by
  rw [valueAfterName?, hRest]
  split
  · exact absurd rfl hHead
  · rfl

theorem valueAfterNameAt_of_standsAt (h : StandsAt text i cs) :
    ∃ r, valueAfterNameAt text i = .ok r ∧ Tracks text r (valueAfterName? cs) := by
  obtain ⟨j, hSkip, hBehind⟩ := skipBlanks_of_standsAt h
  have hEquals := any_byte?_of_standsAt (agrees_beq (d := '=') (by decide)) hBehind
  rw [valueAfterNameAt, hSkip, ok_bind, hEquals]
  by_cases hHead : (dropBlanks cs).head? = some '='
  · obtain ⟨rest, hRest⟩ := List.head?_eq_some_iff.mp hHead
    rw [hRest] at hBehind
    obtain ⟨k, hSkip', hValue⟩ := skipBlanks_of_standsAt (hBehind.tail (by decide))
    rw [if_pos (any_beq_iff.mpr hHead), hSkip', ok_bind, valueAfterName?, hRest]
    exact valueAt_of_standsAt hValue
  · rw [if_neg (mt any_beq_iff.mp hHead), valueAfterName?_of_head? rfl hHead]
    exact ⟨_, rfl, .some hBehind⟩

/-! ## Start tags -/

theorem attributePass_of_char {c : Char} {rest : List Char} (seen : List Attribute)
    (hChar : isAttributeChar c = true) (h : StandsAt text i (c :: rest)) :
    ∃ r, Tracks text r (valueAfterName? (rest.dropWhile isAttributeChar)) ∧
      attributePass text seen i = .ok (match r with
        | none => .inl none
        | some (value, next) =>
          .inr (addAttribute (c :: rest.takeWhile isAttributeChar) value seen, next)) := by
  obtain ⟨hScan, hSlice, hNext⟩ := scanWhile_of_standsAt agrees_isAttributeByte h
  rw [List.dropWhile_cons_of_pos hChar] at hNext
  obtain ⟨r, hValue, hTracks⟩ := valueAfterNameAt_of_standsAt hNext
  have hMoved : ¬ (i + size ((c :: rest).takeWhile isAttributeChar) == i) = true := by
    have hPos := c.utf8Size_pos
    rw [List.takeWhile_cons_of_pos hChar, size_cons, beq_iff_eq]
    omega
  refine ⟨r, hTracks, ?_⟩
  rw [attributePass, hScan, ok_bind, if_neg hMoved, hSlice, ok_bind, hValue, ok_bind,
    List.takeWhile_cons_of_pos hChar]
  cases r <;> rfl

theorem attributePass_of_not_char {c : Char} {rest : List Char} (seen : List Attribute)
    (hChar : isAttributeChar c = false) (h : StandsAt text i (c :: rest)) :
    attributePass text seen i = .ok (.inr (seen, i + 1)) := by
  obtain ⟨hScan, -, -⟩ := scanWhile_of_standsAt agrees_isAttributeByte h
  rw [List.takeWhile_cons_of_neg (by simp [hChar])] at hScan
  rw [attributePass, hScan, ok_bind, if_pos (by simp [size])]
  rfl

/-- What begins no attribute is in ASCII. -/
theorem toNat_lt_of_not_isAttributeChar {c : Char} (h : isAttributeChar c = false) :
    c.toNat < 0x80 := by
  simp only [isAttributeChar, isAsciiBlank, Bool.not_eq_false', Bool.or_eq_true, beq_iff_eq] at h
  rcases h with ((((((rfl | rfl) | rfl) | rfl) | rfl) | rfl) | rfl) | rfl <;> decide

theorem tagPass_of_cons {c : Char} {rest : List Char} (seen : List Attribute)
    (h : StandsAt text i cs) (hRest : dropBlanks cs = c :: rest) :
    ∃ j, StandsAt text j (c :: rest) ∧ tagPass text seen i =
      if c == '>' then .ok (.inl (some (⟨seen.reverse, false⟩, j + 1)))
      else if c == '/' then
        if rest.head?.any (· == '>') then .ok (.inl (some (⟨seen.reverse, true⟩, j + 1 + 1)))
        else .ok (.inr (seen, j + 1))
      else attributePass text seen j := by
  obtain ⟨j, hSkip, hBehind⟩ := skipBlanks_of_standsAt h
  rw [hRest] at hBehind
  obtain ⟨b, hMem, hByte⟩ := byteAt_of_standsAt hBehind
  have hBracket : (b == byteOf '>') = (c == '>') := agrees_beq (by decide) c b hMem
  have hSlash : (b == byteOf '/') = (c == '/') := agrees_beq (by decide) c b hMem
  refine ⟨j, hBehind, ?_⟩
  rw [tagPass, hSkip, ok_bind, if_neg (not_size_le_of_standsAt hBehind), hByte, ok_bind, hBracket,
    hSlash]
  by_cases hEq : c = '/'
  · subst hEq
    rw [any_byte?_of_standsAt (agrees_beq (d := '>') (by decide)) (hBehind.tail (by decide))]
    rfl
  · rw [if_neg (c := (c == '/') = true) (by simpa using hEq),
      if_neg (c := (c == '/') = true) (by simpa using hEq)]
    rfl

theorem tagPass_of_attribute {c : Char} {rest : List Char} (seen : List Attribute)
    (h : StandsAt text i cs) (hRest : dropBlanks cs = c :: rest) (hBracket : c ≠ '>')
    (hSlash : c ≠ '/') :
    ∃ j, StandsAt text j (c :: rest) ∧ tagPass text seen i = attributePass text seen j := by
  obtain ⟨j, hBehind, hPass⟩ := tagPass_of_cons seen h hRest
  rw [if_neg (by simpa using hBracket), if_neg (by simpa using hSlash)] at hPass
  exact ⟨j, hBehind, hPass⟩

theorem length_lt_of_dropBlanks {c : Char} {rest : List Char} (h : dropBlanks cs = c :: rest) :
    rest.length < cs.length := by
  have hLength := length_dropBlanks_le cs
  rw [h, List.length_cons] at hLength
  exact hLength

/-- The loop goes on behind a pass that leaves fewer characters. -/
theorem advance_of_standsAt {σ ρ : Type} {pass : σ → Nat → Except ScanFault (ρ ⊕ σ × Nat)}
    {s s' : σ} {j : Nat} {rest : List Char} (h : StandsAt text i cs) (h' : StandsAt text j rest)
    (hPass : pass s i = .ok (.inr (s', j))) (hLength : rest.length < cs.length) :
    advance text pass s i = advance text pass s' j :=
  advance_of_inr hPass (h.lt h' hLength) h'.le

/-- **The loop over a start tag** finds what the reader of characters finds. -/
theorem advance_tagPass (seen : List Attribute) (h : StandsAt text i cs) :
    ∃ r, advance text (tagPass text) seen i = .ok r ∧ Tracks text r (tagBody? seen cs) := by
  -- the passes of the loop are the calls of `tagBody?`
  fun_induction tagBody? seen cs generalizing i with
  | case1 seen cs hRest =>
      obtain ⟨j, hSkip, hBehind⟩ := skipBlanks_of_standsAt h
      rw [hRest] at hBehind
      have hPass : tagPass text seen i = .ok (.inl none) := by
        rw [tagPass, hSkip, ok_bind, if_pos (size_le_of_standsAt_nil hBehind)]
        rfl
      exact ⟨none, advance_of_inl hPass, .none⟩
  | case2 seen cs rest hRest =>
      obtain ⟨j, hBehind, hPass⟩ := tagPass_of_cons seen h hRest
      rw [if_pos (by decide)] at hPass
      exact ⟨_, advance_of_inl hPass, .some (hBehind.tail (by decide))⟩
  | case3 seen cs rest hRest =>
      obtain ⟨j, hBehind, hPass⟩ := tagPass_of_cons seen h hRest
      have hHead : ('>' :: rest).head?.any (· == '>') = true := rfl
      rw [if_neg (by decide), if_pos (by decide), if_pos hHead] at hPass
      exact ⟨_, advance_of_inl hPass, .some ((hBehind.tail (by decide)).tail (by decide))⟩
  | case4 seen cs rest hOther hRest ih =>
      obtain ⟨j, hBehind, hPass⟩ := tagPass_of_cons seen h hRest
      have hNext := hBehind.tail (by decide)
      have hHead : ¬ rest.head?.any (· == '>') = true := by
        rw [any_beq_iff, List.head?_eq_some_iff]
        rintro ⟨tail, rfl⟩
        exact hOther tail rfl
      rw [if_neg (by decide), if_pos (by decide), if_neg hHead] at hPass
      rw [advance_of_standsAt h hNext hPass (length_lt_of_dropBlanks hRest)]
      exact ih hNext
  | case5 seen cs c rest hBracket _ hSlash hRest hChar hValue =>
      obtain ⟨j, hBehind, hPass⟩ := tagPass_of_attribute seen h hRest hBracket hSlash
      obtain ⟨r, hTracks, hAttribute⟩ := attributePass_of_char seen hChar hBehind
      rw [hValue] at hTracks
      cases hTracks
      exact ⟨none, advance_of_inl (hPass.trans hAttribute), .none⟩
  | case6 seen cs c rest hBracket _ hSlash hRest hChar value after hValue ih =>
      obtain ⟨j, hBehind, hPass⟩ := tagPass_of_attribute seen h hRest hBracket hSlash
      obtain ⟨r, hTracks, hAttribute⟩ := attributePass_of_char seen hChar hBehind
      rw [hValue] at hTracks
      obtain _ | hNext := hTracks
      have hLength := length_lt_of_dropBlanks hRest
      have hBehindName := length_dropWhile_le isAttributeChar rest
      have hBehindValue := length_valueAfterName?_le hValue
      rw [advance_of_standsAt h hNext (hPass.trans hAttribute) (by omega)]
      exact ih hNext
  | case7 seen cs c rest hBracket _ hSlash hRest hChar ih =>
      obtain ⟨j, hBehind, hPass⟩ := tagPass_of_attribute seen h hRest hBracket hSlash
      have hNone := Bool.eq_false_of_not_eq_true hChar
      have hNext := hBehind.tail (toNat_lt_of_not_isAttributeChar hNone)
      rw [advance_of_standsAt h hNext (hPass.trans (attributePass_of_not_char seen hNone hBehind))
        (length_lt_of_dropBlanks hRest)]
      exact ih hNext

theorem nameAt_of_standsAt (h : StandsAt text i cs) :
    ∃ j, nameAt text i = .ok (String.ofList (lowerChars (cs.takeWhile isNameChar)), j) ∧
      StandsAt text j (cs.dropWhile isNameChar) := by
  obtain ⟨hScan, hSlice, hNext⟩ := scanWhile_of_standsAt agrees_isNameByte h
  refine ⟨_, ?_, hNext⟩
  rw [nameAt, hScan, ok_bind, hSlice, ok_bind]
  rfl

/-- A start tag is read as its name and its body are. -/
theorem startTagAt_of_standsAt (h : StandsAt text i ('<' :: cs)) :
    ∃ r, startTagAt text i = .ok r ∧
      Tracks text r ((tagBody? [] (cs.dropWhile isNameChar)).map fun p =>
        ((String.ofList (lowerChars (cs.takeWhile isNameChar)), p.1), p.2)) := by
  obtain ⟨j, hName, hBehind⟩ := nameAt_of_standsAt (h.tail (by decide))
  obtain ⟨r, hBody, hTracks⟩ := advance_tagPass [] hBehind
  rw [startTagAt, hName, ok_bind]
  dsimp only
  rw [hBody, ok_bind]
  generalize tagBody? [] (cs.dropWhile isNameChar) = body at hTracks ⊢
  cases hTracks with
  | none => exact ⟨_, rfl, .none⟩
  | some hNext => exact ⟨_, rfl, .some hNext⟩

/-! ## End tags -/

/-- What goes up to the next closing angle bracket, and what follows it. -/
theorem find_bracket_of_standsAt (h : StandsAt text i cs) :
    ∃ found, find text (encode ">".toList) i = .ok found ∧
      slice text i (found.elim (size text) (· + 1)) =
        .ok (cs.takeWhile (· != '>') ++ (cs.dropWhile (· != '>')).take 1) ∧
      StandsAt text (found.elim (size text) (· + 1)) (afterBracket cs) := by
  have hMark : ∀ c ∈ ['>'], c.toNat < 0x80 := List.forall_mem_singleton.mpr (by decide)
  rw [show ">".toList = ['>'] from rfl]
  refine ⟨_, find_of_standsAt hMark h, ?_⟩
  rw [afterBracket, breakOn?_singleton]
  have hParts := List.takeWhile_append_dropWhile (p := (· != '>')) (l := cs)
  cases hDrop : cs.dropWhile (· != '>') with
  | nil =>
      rw [hDrop, List.append_nil] at hParts
      refine ⟨?_, standsAt_size text⟩
      rw [List.take_nil, List.append_nil, hParts]
      exact slice_size_of_standsAt h
  | cons bracket rest =>
      obtain rfl : bracket = '>' := by
        have hHead := List.head?_dropWhile_not (· != '>') cs
        rw [hDrop] at hHead
        simpa using hHead
      rw [hDrop] at hParts
      have hBracket : StandsAt text i ((cs.takeWhile (· != '>') ++ ['>']) ++ rest) := by
        rwa [List.append_assoc, List.singleton_append, hParts]
      have hSize : size (cs.takeWhile (· != '>') ++ ['>']) =
          size (cs.takeWhile (· != '>')) + 1 := size_append _ _
      have hSlice := slice_of_standsAt hBracket
      have hNext := hBracket.append
      rw [hSize, ← Nat.add_assoc] at hSlice hNext
      exact ⟨hSlice, hNext⟩

theorem endTagAt_of_standsAt (h : StandsAt text (i + 2) cs) :
    ∃ j, endTagAt text i = .ok ((endTag cs).1, j) ∧ StandsAt text j (endTag cs).2 := by
  obtain ⟨start, hSkip, hStart⟩ := skipBlanks_of_standsAt h
  obtain ⟨stop, hName, hStop⟩ := nameAt_of_standsAt hStart
  obtain ⟨found, hFind, -, hNext⟩ := find_bracket_of_standsAt hStop
  refine ⟨_, ?_, hNext⟩
  rw [endTagAt, hSkip, ok_bind, hName, ok_bind]
  dsimp only
  rw [hFind, ok_bind]
  cases found <;> rfl

end Tags

/-! ## Declarations of the document type -/

section Declarations

variable {cs rest : List Char} {q : Char → Bool} {c : Char}

theorem offsetWhere_of_nil (h : cs.dropWhile (!q ·) = []) : offsetWhere q cs = none := by
  refine if_neg fun hAny => ?_
  obtain ⟨d, hMem, hHere⟩ := List.any_eq_true.mp hAny
  have hPassed := List.dropWhile_eq_nil_iff.mp h d hMem
  simp [hHere] at hPassed

theorem offsetWhere_of_cons (h : cs.dropWhile (!q ·) = c :: rest) :
    offsetWhere q cs = some (size (cs.takeWhile (!q ·))) ∧
      StandsAt cs (size (cs.takeWhile (!q ·))) (c :: rest) ∧ q c = true := by
  have hHere : q c = true := by
    have hHead := List.head?_dropWhile_not (!q ·) cs
    rw [h] at hHead
    simpa using hHead
  refine ⟨if_pos ?_, ?_, hHere⟩
  · refine List.any_eq_true.mpr ⟨c, ?_, hHere⟩
    exact (List.dropWhile_sublist _).mem (h ▸ List.mem_cons_self)
  · exact ⟨_, by rw [← h, List.takeWhile_append_dropWhile], rfl⟩

/-- A text in quotes is cut out between characters. -/
theorem quotedPart_eq (cs : List Char) : quotedPart cs = .ok (quoted? cs) := by
  have hQuote : (fun c : Char => c != '"' && c != '\'') =
      fun c => !(c == '"' || c == '\'') := by
    funext c
    exact (Bool.not_or _ _).symm
  rw [quotedPart, quoted?, hQuote]
  cases hDrop : cs.dropWhile fun c => !(c == '"' || c == '\'') with
  | nil =>
      rw [offsetWhere_of_nil hDrop]
      rfl
  | cons quote rest =>
      obtain ⟨hOffset, hStart, hHere⟩ := offsetWhere_of_cons hDrop
      have hAscii : quote.toNat < 0x80 := by
        simp only [Bool.or_eq_true, beq_iff_eq] at hHere
        rcases hHere with rfl | rfl <;> decide
      rw [hOffset]
      dsimp only
      rw [slice_size_of_standsAt hStart, ok_bind]
      dsimp only
      rw [slice_size_of_standsAt (hStart.tail hAscii), ok_bind]
      cases hEnd : rest.dropWhile (· != quote) with
      | nil =>
          rw [offsetWhere_of_nil (q := (· == quote)) hEnd]
          rfl
      | cons d after =>
          obtain ⟨hOffset', hStop, hSame⟩ := offsetWhere_of_cons (q := (· == quote)) hEnd
          obtain rfl := beq_iff_eq.mp hSame
          have hParts : StandsAt rest 0 (rest.takeWhile (· != d) ++ d :: after) := by
            rw [← hEnd, List.takeWhile_append_dropWhile]
            exact standsAt_zero rest
          have hValue := slice_of_standsAt hParts
          rw [Nat.zero_add] at hValue
          rw [hOffset']
          dsimp only
          rw [show (fun c => !(c == d)) = (· != d) from rfl] at hStop ⊢
          rw [hValue, ok_bind, slice_size_of_standsAt (hStop.tail hAscii), ok_bind]
          rfl

theorem identifierOf_quoted? (cs : List Char) :
    identifierOf (quoted? cs) = Doctype.identifier? cs := by
  rw [identifierOf, Doctype.identifier?]
  cases quoted? cs with
  | none => rfl
  | some part =>
      obtain ⟨value, after⟩ := part
      cases value <;> rfl

/-- A front in ASCII takes as many bytes as characters. -/
theorem standsAt_of_startsWithNoCase {front : List Char} (hFront : ∀ c ∈ front, c.toNat < 0x80)
    (h : startsWithNoCase front cs = true) : StandsAt cs front.length (cs.drop front.length) := by
  induction front generalizing cs with
  | nil => exact standsAt_zero cs
  | cons f front ih =>
      obtain ⟨hAscii, hRest⟩ := List.forall_mem_cons.mp hFront
      cases cs with
      | nil => exact absurd h Bool.false_ne_true
      | cons c cs =>
          obtain ⟨hSame, hMore⟩ := Bool.and_eq_true_iff.mp h
          have hc : c.toNat < 0x80 := by
            by_contra hLarge
            rw [toLower_of_le (by omega), beq_iff_eq] at hSame
            exact hLarge (hSame ▸ hAscii)
          obtain ⟨passed, hText, hSize⟩ := ih hRest hMore
          refine ⟨c :: passed, ?_, ?_⟩
          · rw [List.cons_append]
            exact congrArg (c :: ·) hText
          · rw [size_cons, utf8Size_of_lt hc, ← hSize, List.length_cons, Nat.add_comm]

theorem drop_of_startsWithNoCase (front : List Char) (hFront : ∀ c ∈ front, c.toNat < 0x80)
    (h : startsWithNoCase front cs = true) :
    slice cs front.length (size cs) = .ok (cs.drop front.length) :=
  slice_size_of_standsAt (standsAt_of_startsWithNoCase hFront h)

/-- A declaration of the document type is read without a fault. -/
theorem doctypeAt_eq (h : Doctype.isDeclaration cs = true) :
    doctypeAt cs = .ok (Doctype.ofBody (cs.drop 9)) := by
  have hBody : slice cs 9 (size cs) = .ok (cs.drop 9) :=
    drop_of_startsWithNoCase "<!doctype".toList (by simp) h
  have hPublic : ∀ ds, startsIgnoringCase (encode "public".toList) (encode ds) =
      startsWithNoCase "public".toList ds := startsIgnoringCase_encode (by simp)
  have hSystem : ∀ ds, startsIgnoringCase (encode "system".toList) (encode ds) =
      startsWithNoCase "system".toList ds := startsIgnoringCase_encode (by simp)
  rw [doctypeAt, hBody, ok_bind, Doctype.ofBody]
  generalize trimChars (dropEndWhile (· == '>') (cs.drop 9)) = inner
  dsimp only
  generalize trimChars ((breakWhere isAsciiBlank inner).2.drop 1) = rest
  rw [hPublic, hSystem]
  by_cases hIds : startsWithNoCase "public".toList rest = true
  · have hSlice : slice rest 6 (size rest) = .ok (rest.drop 6) :=
      drop_of_startsWithNoCase "public".toList (by simp) hIds
    have hSecond : identifierOf (quoted? ((quoted? (rest.drop 6)).elim (rest.drop 6) Prod.snd)) =
        Doctype.secondIdentifier? (rest.drop 6) := by
      rw [identifierOf_quoted?, Doctype.secondIdentifier?]
      cases hFirst : quoted? (rest.drop 6) with
      | none => rw [Option.elim_none, Doctype.identifier?, hFirst]; rfl
      | some part => rfl
    rw [if_pos hIds, if_pos hIds, hSlice, ok_bind, quotedPart_eq, ok_bind, quotedPart_eq, ok_bind,
      identifierOf_quoted?, hSecond]
    rfl
  · rw [if_neg hIds, if_neg hIds]
    by_cases hIds' : startsWithNoCase "system".toList rest = true
    · have hSlice : slice rest 6 (size rest) = .ok (rest.drop 6) :=
        drop_of_startsWithNoCase "system".toList (by simp) hIds'
      rw [if_pos hIds', if_pos hIds', hSlice, ok_bind, quotedPart_eq, ok_bind,
        identifierOf_quoted?]
      rfl
    · rw [if_neg hIds', if_neg hIds']
      rfl

end Declarations

/-! ## Raw texts -/

/-- Whether an end tag of the element `name` begins some bytes. -/
def beginsEndTag (name bytes : List UInt8) : Bool :=
  startsIgnoringCase (byteOf '<' :: byteOf '/' :: name) bytes &&
    !(bytes.drop (name.length + 2)).head?.any isAlnumByte

section RawText

variable {text cs name : List Char} {i : Nat}

theorem startsEndTag_eq (name cs : List Char) : startsEndTag name cs =
    (startsWithNoCase ('<' :: '/' :: name) cs &&
      !(cs.drop (name.length + 2)).head?.any Char.isAlphanum) := by
  rw [startsEndTag]
  congr 1
  cases cs.drop (name.length + 2) <;> rfl

theorem agreesBehind_startsEndTag (hName : ∀ c ∈ name, c.toNat < 0x80 ∧ c.toLower = c) :
    AgreesBehind (beginsEndTag (encode name)) (startsEndTag name) where
  place c cs := by
    have hFront : ∀ d ∈ '<' :: '/' :: name, d.toNat < 0x80 ∧ d.toLower = d :=
      List.forall_mem_cons.mpr ⟨by decide, List.forall_mem_cons.mpr ⟨by decide, hName⟩⟩
    have hAscii : ∀ d ∈ '<' :: '/' :: name, d.toNat < 0x80 := fun d hMem => (hFront d hMem).1
    have hBytes : byteOf '<' :: byteOf '/' :: encode name = encode ('<' :: '/' :: name) := by
      rw [encode_cons_of_lt (by decide), encode_cons_of_lt (by decide)]
    rw [beginsEndTag, startsEndTag_eq, hBytes, startsIgnoringCase_encode hFront,
      length_encode_of_forall_lt fun d hMem => (hName d hMem).1]
    by_cases hStart : startsWithNoCase ('<' :: '/' :: name) (c :: cs) = true
    · have hStands := standsAt_of_startsWithNoCase hAscii hStart
      rw [List.length_cons, List.length_cons] at hStands
      rw [hStands.drop_encode, head?_any_encode agrees_isAlnumByte]
    · rw [Bool.eq_false_of_not_eq_true hStart, Bool.false_and, Bool.false_and]
  inside c hLarge b hMem rest := by
    have hOther : ('<' == c.toLower) = false := by
      rw [toLower_of_le hLarge]
      refine beq_false_of_ne ?_
      rintro rfl
      exact absurd hLarge (by decide)
    rw [beginsEndTag, startsIgnoringCase_cons, lowerByte_beq (by decide) (by decide) hMem, hOther,
      Bool.false_and, Bool.false_and]

/-- The test for an end tag looks at the bytes behind its offset only. -/
theorem endsRawText_eq {name bs : List UInt8} {k : Nat} (hBytes : (encode text).drop k = bs)
    (hRoom : name.length + 1 < bs.length) :
    endsRawText text name k = .ok (beginsEndTag name bs) := by
  obtain ⟨b, bs, rfl⟩ := List.exists_cons_of_length_pos (Nat.lt_of_le_of_lt (Nat.zero_le _) hRoom)
  rw [List.length_cons] at hRoom
  obtain ⟨d, bs, rfl⟩ := List.exists_cons_of_length_pos (l := bs) (by omega)
  rw [List.length_cons] at hRoom
  obtain ⟨hFirst, hRest, -⟩ := byteAt_of_drop hBytes
  obtain ⟨hSecond, hBehind, hLess⟩ := byteAt_of_drop hRest
  have hLength := congrArg List.length hBehind
  rw [List.length_drop, length_encode] at hLength
  have hFound : bytesBetween text (k + 2) (k + 2 + name.length) = .ok (bs.take name.length) := by
    rw [bytesBetween, if_pos ⟨by omega, by omega⟩, hBehind, Nat.add_sub_cancel_left]
  have hNext : byte? text (k + 2 + name.length) = (bs.drop name.length).head? := by
    rw [byte?, ← List.head?_drop, ← List.drop_drop, hBehind]
  rw [endsRawText, hFirst, ok_bind, beginsEndTag, startsIgnoringCase_cons,
    startsIgnoringCase_cons, lowerByte_beq_of_sign (Or.inl rfl),
    lowerByte_beq_of_sign (Or.inr rfl)]
  by_cases hOpen : b = byteOf '<'
  · rw [if_neg (by simp [hOpen]), hSecond, ok_bind, hOpen, beq_self_eq_true, Bool.true_and]
    by_cases hSlash : d = byteOf '/'
    · rw [if_neg (by simp [hSlash]), hFound, ok_bind, hNext, hSlash, beq_self_eq_true,
        Bool.true_and]
      rfl
    · rw [if_pos (by simp [hSlash]), beq_false_of_ne hSlash, Bool.false_and, Bool.false_and]
      rfl
  · rw [if_pos (by simp [hOpen]), beq_false_of_ne hOpen, Bool.false_and, Bool.false_and]
    rfl

theorem beginsEndTag_of_length_le {name bs : List UInt8} (h : bs.length ≤ name.length + 1) :
    beginsEndTag name bs = false := by
  rw [beginsEndTag, startsIgnoringCase_of_length_lt, Bool.false_and]
  rw [List.length_cons, List.length_cons]
  omega

theorem rawText_eq_cutBefore (name cs : List Char) :
    rawText name cs = cutBefore (startsEndTag name) cs := by
  induction cs with
  | nil => rfl
  | cons c cs ih => rw [rawText, cutBefore_cons, ih]

end RawText

/-! ## Plain texts -/

/-- Whether something opens at the front of some bytes. -/
def beginsMarkup : List UInt8 → Bool
  | b :: rest => b == byteOf '<' && rest.head?.any opensMarkupByte
  | [] => false

/-- Whether something opens at the front of a text. -/
def opensAtFront : List Char → Bool
  | c :: cs => c == '<' && cs.head?.any opensMarkup
  | [] => false

section PlainText

variable {text cs : List Char} {i : Nat}

theorem agreesBehind_opensAtFront : AgreesBehind beginsMarkup opensAtFront where
  place c cs := by
    obtain ⟨b, tail, hBytes, hFirst, hTail⟩ := exists_encode_cons c cs
    rw [hBytes, beginsMarkup, opensAtFront, hFirst '<' (by decide)]
    by_cases hOpen : c = '<'
    · rw [hTail (by rw [hOpen]; decide), head?_any_encode agrees_opensMarkupByte]
    · rw [beq_false_of_ne hOpen, Bool.false_and, Bool.false_and]
  inside c hLarge b hMem rest := by
    rw [beginsMarkup, beq_byteOf_of_inside (by decide) hLarge hMem, Bool.false_and]

theorem startsMarkup_eq {bs : List UInt8} {k : Nat} (hBytes : (encode text).drop k = bs)
    (hRoom : 0 < bs.length) : startsMarkup text k = .ok (beginsMarkup bs) := by
  obtain ⟨b, rest, rfl⟩ := List.exists_cons_of_length_pos hRoom
  obtain ⟨hByte, hRest, -⟩ := byteAt_of_drop hBytes
  have hNext : byte? text (k + 1) = rest.head? := by rw [byte?, ← List.head?_drop, hRest]
  rw [startsMarkup, hByte, ok_bind, hNext]
  rfl

theorem plainText_eq_cutBefore (cs : List Char) :
    plainText cs = cutBefore opensAtFront cs := by
  fun_induction plainText cs with
  | case1 => rfl
  | case2 d cs hOpens =>
      rw [cutBefore_cons, if_pos]
      exact hOpens
  | case3 d cs hOpens text rest hRest ih =>
      rw [cutBefore_cons, if_neg (show ¬ opensAtFront ('<' :: d :: cs) = true from hOpens), ← ih,
        hRest]
  | case4 c cs hOther text rest hRest ih =>
      have hNone : ¬ opensAtFront (c :: cs) = true := by
        intro hOpens
        cases cs with
        | nil => simp [opensAtFront] at hOpens
        | cons d cs =>
            obtain ⟨hOpen, -⟩ := Bool.and_eq_true_iff.mp hOpens
            exact hOther d cs (beq_iff_eq.mp hOpen) rfl
      rw [cutBefore_cons, if_neg hNone, ← ih, hRest]

end PlainText

end PagePreview.Markup
