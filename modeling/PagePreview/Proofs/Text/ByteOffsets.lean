import PagePreview.Proofs.Text.AsciiCase
import PagePreview.Proofs.Text.WrittenUtf8
import PagePreview.Text.Blank
import PagePreview.Text.Search

/-!
# Places in a text by their byte offsets

A text can be scanned by its bytes.  An offset then is a number like any
other: there may be no byte at it, and a part of the text may begin or end
inside a character.  The operations here check for that and say what is wrong
(`ScanFault`).

What makes an offset a good one is that it is the size of a front of the text.
`StandsAt text i cs` says so and names what follows.  From such offsets a text
is cut out without a fault (`slice_of_standsAt`), and what its bytes are like
says what its characters are like (`Agrees`).
-/

namespace PagePreview.Text

open Utf8

/-! ## Checked operations -/

/-- Why a scan cannot go on. -/
inductive ScanFault where
  /-- There is no byte at an offset. -/
  | noByte (i : Nat)
  /-- From one offset to another there are no bytes. -/
  | noRange (i j : Nat)
  /-- An offset lies inside a character or behind the end. -/
  | noBoundary (i : Nat)
  /-- There is nothing to look for. -/
  | emptyMark
  /-- The cursor of a loop does not move on, or it leaves the text. -/
  | stuck (i next : Nat)
deriving DecidableEq, Repr

theorem ok_bind {α β : Type} (a : α) (f : α → Except ScanFault β) :
    (Except.ok a >>= f) = f a := rfl

section Operations

variable (text : List Char)

/-- The byte at an offset, if there is one. -/
def byte? (i : Nat) : Option UInt8 := (encode text)[i]?

/-- The byte at an offset. -/
def byteAt (i : Nat) : Except ScanFault UInt8 :=
  match byte? text i with
  | some b => .ok b
  | none => .error (.noByte i)

/-- The bytes from one offset up to another. -/
def bytesBetween (i j : Nat) : Except ScanFault (List UInt8) :=
  if i ≤ j ∧ j ≤ size text then .ok (((encode text).drop i).take (j - i))
  else .error (.noRange i j)

/-- The text behind an offset. -/
def textFrom : List Char → (offset : Nat) → Except ScanFault (List Char)
  | cs, 0 => .ok cs
  | [], i + 1 => .error (.noBoundary (i + 1))
  | c :: cs, i + 1 =>
    if c.utf8Size ≤ i + 1 then textFrom cs (i + 1 - c.utf8Size)
    else .error (.noBoundary (i + 1))

/-- The text in front of an offset. -/
def textUpTo : List Char → (offset : Nat) → Except ScanFault (List Char)
  | _, 0 => .ok []
  | [], i + 1 => .error (.noBoundary (i + 1))
  | c :: cs, i + 1 =>
    if c.utf8Size ≤ i + 1 then (textUpTo cs (i + 1 - c.utf8Size)).map (c :: ·)
    else .error (.noBoundary (i + 1))

/-- The part of a text from one offset up to another. -/
def slice (i j : Nat) : Except ScanFault (List Char) := do
  if j < i then throw (.noRange i j)
  textUpTo (← textFrom text i) (j - i)

/-- The first offset from `i` on that passes a test, as long as more than `room` bytes are left. -/
def seek (room : Nat) (test : Nat → Except ScanFault Bool) (i : Nat) :
    Except ScanFault (Option Nat) :=
  if i + room < size text then do
    if ← test i then return some i else seek room test (i + 1)
  else return none
termination_by size text - i

/-- The offset behind the bytes from `i` on that satisfy `p`. -/
def scanWhile (p : UInt8 → Bool) (i : Nat) : Except ScanFault Nat := do
  let stop ← seek text 0 (fun k => do return !p (← byteAt text k)) i
  return stop.getD (max i (size text))

/-- How many bytes stand in front of the first place with a property. -/
def positionWhere (P : List UInt8 → Bool) : List UInt8 → Option Nat
  | [] => none
  | b :: bs => if P (b :: bs) then some 0 else (positionWhere P bs).map (· + 1)

/-- The offset of the first occurrence of a mark from `i` on. -/
def find (mark : List UInt8) (i : Nat) : Except ScanFault (Option Nat) := do
  if size text < i then return none
  if mark.isEmpty then throw .emptyMark
  let bytes ← bytesBetween text i (size text)
  return (positionWhere mark.isPrefixOf bytes).map (i + ·)

/-- Whether certain bytes stand at an offset. -/
def hasBytesAt (i : Nat) (front : List UInt8) : Bool := front.isPrefixOf ((encode text).drop i)

/-- A loop over a text. Each pass ends the loop, or it moves the cursor. -/
def advance {σ ρ : Type} (pass : σ → Nat → Except ScanFault (ρ ⊕ σ × Nat)) (s : σ) (i : Nat) :
    Except ScanFault ρ := do
  match ← pass s i with
  | .inl r => return r
  | .inr (s', next) =>
    if i < next ∧ next ≤ size text then advance pass s' next else throw (.stuck i next)
termination_by size text - i

end Operations

/-- A byte with a capital letter made small. -/
def lowerByte (b : UInt8) : UInt8 := if 0x41 ≤ b && b ≤ 0x5A then b + 0x20 else b

/-- Whether some bytes begin with others when the case of letters is ignored. -/
def startsIgnoringCase (front bytes : List UInt8) : Bool :=
  (bytes.take front.length).map lowerByte == front.map lowerByte

/-! ## Sizes -/

theorem size_cons (c : Char) (cs : List Char) : size (c :: cs) = c.utf8Size + size cs := rfl

theorem size_append (cs ds : List Char) : size (cs ++ ds) = size cs + size ds := by
  induction cs with
  | nil => exact (Nat.zero_add _).symm
  | cons c cs ih => rw [List.cons_append, size_cons, size_cons, ih, Nat.add_assoc]

theorem length_encode (cs : List Char) : (encode cs).length = size cs := by
  induction cs with
  | nil => rfl
  | cons c cs ih =>
      rw [encode_cons, List.length_append, String.length_utf8EncodeChar, ih, size_cons]

theorem encode_append (cs ds : List Char) : encode (cs ++ ds) = encode cs ++ encode ds :=
  List.flatMap_append

/-- A character up to 127 takes one byte. -/
theorem utf8Size_of_lt {c : Char} (h : c.toNat < 0x80) : c.utf8Size = 1 := by
  rw [← String.length_utf8EncodeChar, utf8EncodeChar_of_lt h, List.length_singleton]

theorem length_encode_of_forall_lt {cs : List Char} (h : ∀ c ∈ cs, c.toNat < 0x80) :
    (encode cs).length = cs.length := by
  rw [encode_of_forall_lt h, List.length_map]

/-! ## Places between characters -/

/-- The offset `i` lies between characters of a text, or at one of its ends, and `cs` is what
follows. -/
def StandsAt (text : List Char) (i : Nat) (cs : List Char) : Prop :=
  ∃ front, text = front ++ cs ∧ i = size front

section StandsAt

variable {text cs ds part : List Char} {i j : Nat}

theorem standsAt_zero (text : List Char) : StandsAt text 0 text := ⟨[], rfl, rfl⟩

theorem standsAt_size (text : List Char) : StandsAt text (size text) [] :=
  ⟨text, (List.append_nil text).symm, rfl⟩

/-- A part of the text is passed. -/
theorem StandsAt.append (h : StandsAt text i (part ++ cs)) : StandsAt text (i + size part) cs := by
  obtain ⟨front, rfl, rfl⟩ := h
  exact ⟨front ++ part, (List.append_assoc ..).symm, (size_append ..).symm⟩

/-- A place in the rest of a text is one in the text. -/
theorem StandsAt.trans (h : StandsAt text i cs) (h' : StandsAt cs j ds) :
    StandsAt text (i + j) ds := by
  obtain ⟨part, rfl, rfl⟩ := h'
  exact h.append

/-- A character that takes one byte is passed. -/
theorem StandsAt.tail {c : Char} (h : StandsAt text i (c :: cs)) (hAscii : c.toNat < 0x80) :
    StandsAt text (i + 1) cs := by
  have hNext : StandsAt text (i + size [c]) cs := StandsAt.append h
  rwa [size_cons, utf8Size_of_lt hAscii] at hNext

theorem StandsAt.add_size (h : StandsAt text i cs) : i + size cs = size text := by
  obtain ⟨front, rfl, rfl⟩ := h
  exact (size_append ..).symm

theorem StandsAt.le (h : StandsAt text i cs) : i ≤ size text := by
  have hSize := h.add_size
  omega

theorem StandsAt.drop_encode (h : StandsAt text i cs) : (encode text).drop i = encode cs := by
  obtain ⟨front, rfl, rfl⟩ := h
  rw [encode_append, ← length_encode, List.drop_left]

/-- The later of two places has less behind it. -/
theorem StandsAt.lt (h : StandsAt text i cs) (h' : StandsAt text j ds)
    (hLength : ds.length < cs.length) : i < j := by
  obtain ⟨front, rfl, rfl⟩ := h
  obtain ⟨front', hText, rfl⟩ := h'
  have hFront : front <+: front' := by
    refine List.prefix_of_prefix_length_le ⟨cs, rfl⟩ ⟨ds, hText.symm⟩ ?_
    have hLengths := congrArg List.length hText
    rw [List.length_append, List.length_append] at hLengths
    omega
  obtain ⟨part, rfl⟩ := hFront
  have hPart : part ≠ [] := by
    rintro rfl
    rw [List.append_nil] at hText
    rw [List.append_cancel_left hText] at hLength
    omega
  obtain ⟨c, part, rfl⟩ := List.exists_cons_of_ne_nil hPart
  have hPos := c.utf8Size_pos
  rw [size_append, size_cons]
  omega

/-- There are no characters left at the end only. -/
theorem StandsAt.lt_size_iff (h : StandsAt text i cs) : i < size text ↔ cs ≠ [] := by
  have hSize := h.add_size
  cases cs with
  | nil =>
      have hEnd : i = size text := hSize
      simp [hEnd]
  | cons c cs =>
      have hPos := c.utf8Size_pos
      rw [size_cons] at hSize
      simp
      omega

theorem byte?_of_standsAt (h : StandsAt text i cs) (k : Nat) :
    byte? text (i + k) = (encode cs)[k]? := by
  rw [byte?, ← h.drop_encode, List.getElem?_drop]

theorem bytesBetween_of_standsAt (h : StandsAt text i cs) :
    bytesBetween text i (size text) = .ok (encode cs) := by
  rw [bytesBetween, if_pos ⟨h.le, Nat.le_refl _⟩, h.drop_encode, List.take_of_length_le]
  rw [length_encode]
  have hSize := h.add_size
  omega

theorem textFrom_cons (c : Char) (cs : List Char) (n : Nat) :
    textFrom (c :: cs) (c.utf8Size + n) = textFrom cs n := by
  have hPos := c.utf8Size_pos
  obtain ⟨k, hk⟩ : ∃ k, c.utf8Size + n = k + 1 := ⟨c.utf8Size + n - 1, by omega⟩
  rw [hk, textFrom, if_pos (by omega), ← hk, Nat.add_sub_cancel_left]

theorem textUpTo_cons (c : Char) (cs : List Char) (n : Nat) :
    textUpTo (c :: cs) (c.utf8Size + n) = (textUpTo cs n).map (c :: ·) := by
  have hPos := c.utf8Size_pos
  obtain ⟨k, hk⟩ : ∃ k, c.utf8Size + n = k + 1 := ⟨c.utf8Size + n - 1, by omega⟩
  rw [hk, textUpTo, if_pos (by omega), ← hk, Nat.add_sub_cancel_left]

theorem textFrom_append (front cs : List Char) : textFrom (front ++ cs) (size front) = .ok cs := by
  induction front with
  | nil => cases cs <;> rfl
  | cons c front ih => rw [List.cons_append, size_cons, textFrom_cons, ih]

theorem textUpTo_append (front cs : List Char) : textUpTo (front ++ cs) (size front) = .ok front := by
  induction front with
  | nil => cases cs <;> rfl
  | cons c front ih =>
      rw [List.cons_append, size_cons, textUpTo_cons, ih]
      rfl

/-- **What stands at a place can be cut out.** -/
theorem slice_of_standsAt (h : StandsAt text i (part ++ cs)) :
    slice text i (i + size part) = .ok part := by
  obtain ⟨front, rfl, rfl⟩ := h
  rw [slice, if_neg (by omega), Nat.add_sub_cancel_left]
  show (textFrom (front ++ (part ++ cs)) (size front) >>= fun rest => textUpTo rest (size part)) = _
  rw [textFrom_append]
  exact textUpTo_append part cs

/-- A character has a first byte. -/
theorem exists_lead (c : Char) :
    ∃ b more, String.utf8EncodeChar c = b :: more ∧ b ∈ String.utf8EncodeChar c := by
  obtain ⟨b, more, hBytes, -⟩ := next_encode c []
  exact ⟨b, more, hBytes, hBytes ▸ List.mem_cons_self⟩

theorem byteAt_of_standsAt {c : Char} (h : StandsAt text i (c :: cs)) :
    ∃ b ∈ String.utf8EncodeChar c, byteAt text i = .ok b := by
  obtain ⟨b, more, hBytes, hMem⟩ := exists_lead c
  have hByte := byte?_of_standsAt h 0
  rw [encode_cons, hBytes] at hByte
  refine ⟨b, hMem, ?_⟩
  rw [byteAt, show byte? text i = some b from hByte]

/-- Everything from a place on can be cut out. -/
theorem slice_size_of_standsAt (h : StandsAt text i cs) : slice text i (size text) = .ok cs := by
  rw [← h.add_size]
  exact slice_of_standsAt (by rwa [List.append_nil])

end StandsAt

/-! ## Bytes and characters -/

/-- The byte of a character up to 127. -/
def byteOf (c : Char) : UInt8 := UInt8.ofNat c.toNat

theorem encode_cons_of_lt {c : Char} (h : c.toNat < 0x80) (cs : List Char) :
    encode (c :: cs) = byteOf c :: encode cs := by
  rw [encode_cons, utf8EncodeChar_of_lt h]
  rfl

/-- A predicate on bytes treats all bytes of a character as a predicate on characters treats the
character. -/
def Agrees (p : UInt8 → Bool) (q : Char → Bool) : Prop :=
  ∀ c, ∀ b ∈ String.utf8EncodeChar c, p b = q c

/-- The bytes of a character above 127 are above 127. -/
theorem le_of_mem_utf8EncodeChar {c : Char} (h : 0x80 ≤ c.toNat) {b : UInt8}
    (hMem : b ∈ String.utf8EncodeChar c) : 0x80 ≤ b.toNat := by
  have hValid := toNat_valid c
  rw [utf8EncodeChar_eq, if_neg (by omega)] at hMem
  have hByte : ∃ n, 0x80 ≤ n ∧ n < 256 ∧ b = UInt8.ofNat n := by
    split at hMem
    · obtain rfl | rfl := by simpa only [List.mem_cons, List.not_mem_nil, or_false] using hMem
      all_goals exact ⟨_, by omega, by omega, rfl⟩
    · split at hMem
      · obtain rfl | rfl | rfl := by
          simpa only [List.mem_cons, List.not_mem_nil, or_false] using hMem
        all_goals exact ⟨_, by omega, by omega, rfl⟩
      · obtain rfl | rfl | rfl | rfl := by
          simpa only [List.mem_cons, List.not_mem_nil, or_false] using hMem
        all_goals exact ⟨_, by omega, by omega, rfl⟩
  obtain ⟨n, hLarge, hLess, rfl⟩ := hByte
  rwa [toNat_ofNat_of_lt hLess]

section Agrees

variable {p p' : UInt8 → Bool} {q q' : Char → Bool}

theorem Agrees.not (h : Agrees p q) : Agrees (fun b => !p b) (fun c => !q c) :=
  fun c b hMem => congrArg (!·) (h c b hMem)

theorem Agrees.or (h : Agrees p q) (h' : Agrees p' q') :
    Agrees (fun b => p b || p' b) (fun c => q c || q' c) :=
  fun c b hMem => congrArg₂ (· || ·) (h c b hMem) (h' c b hMem)

theorem byteOf_inj {c d : Char} (hc : c.toNat < 0x80) (hd : d.toNat < 0x80) :
    byteOf c = byteOf d ↔ c = d := by
  constructor
  · intro h
    have hNat := congrArg UInt8.toNat h
    rw [byteOf, byteOf, toNat_ofNat_of_lt (by omega), toNat_ofNat_of_lt (by omega)] at hNat
    exact Char.toNat_inj.mp hNat
  · rintro rfl
    rfl

/-- A character is in a range of ASCII if its bytes are in the range of bytes. -/
theorem agrees_between (low high : Char) (hLow : low.toNat < 0x80) (hHigh : high.toNat < 0x80) :
    Agrees (fun b => byteOf low ≤ b && b ≤ byteOf high)
      (fun c => low.val ≤ c.val && c.val ≤ high.val) := by
  intro c b hMem
  simp only [UInt8.le_iff_toNat_le, UInt32.le_iff_toNat_le, Char.toNat_val, byteOf,
    toNat_ofNat_of_lt (show low.toNat < 256 by omega),
    toNat_ofNat_of_lt (show high.toNat < 256 by omega)]
  by_cases hc : c.toNat < 0x80
  · rw [utf8EncodeChar_of_lt hc, List.mem_singleton] at hMem
    rw [hMem, toNat_ofNat_of_lt (by omega)]
  · have hLarge := le_of_mem_utf8EncodeChar (by omega) hMem
    rw [decide_eq_false (show ¬ b.toNat ≤ high.toNat by omega),
      decide_eq_false (show ¬ c.toNat ≤ high.toNat by omega), Bool.and_false, Bool.and_false]

/-- A character up to 127 is found by its byte. -/
theorem agrees_beq {d : Char} (hd : d.toNat < 0x80) : Agrees (· == byteOf d) (· == d) := by
  intro c b hMem
  by_cases hc : c.toNat < 0x80
  · rw [utf8EncodeChar_of_lt hc, List.mem_singleton] at hMem
    rw [hMem, Bool.eq_iff_iff, beq_iff_eq, beq_iff_eq]
    exact byteOf_inj hc hd
  · have hLarge := le_of_mem_utf8EncodeChar (by omega) hMem
    have hByte : b ≠ byteOf d := by
      rintro rfl
      rw [byteOf, toNat_ofNat_of_lt (by omega)] at hLarge
      omega
    have hChar : c ≠ d := by
      rintro rfl
      omega
    show (b == byteOf d) = (c == d)
    rw [beq_false_of_ne hByte, beq_false_of_ne hChar]

theorem any_byte?_of_standsAt {text cs : List Char} {i : Nat} (hAgrees : Agrees p q)
    (h : StandsAt text i cs) : (byte? text i).any p = cs.head?.any q := by
  have hByte : byte? text i = (encode cs)[0]? := byte?_of_standsAt h 0
  rw [hByte]
  cases cs with
  | nil => rfl
  | cons c cs =>
      obtain ⟨b, more, hBytes, hMem⟩ := exists_lead c
      rw [encode_cons, hBytes]
      exact hAgrees c b hMem

/-- What is passed byte by byte ends between characters. -/
theorem takeWhile_encode (h : Agrees p q) (cs : List Char) :
    (encode cs).takeWhile p = encode (cs.takeWhile q) := by
  induction cs with
  | nil => rfl
  | cons c cs ih =>
      rw [encode_cons, List.takeWhile_cons]
      by_cases hChar : q c = true
      · have hAll : ∀ b ∈ String.utf8EncodeChar c, p b = true :=
          fun b hMem => (h c b hMem).trans hChar
        rw [if_pos hChar, List.takeWhile_append_of_pos hAll, ih, encode_cons]
      · obtain ⟨b, more, hBytes, hMem⟩ := exists_lead c
        have hFirst := h c b hMem
        rw [if_neg hChar, hBytes, List.cons_append,
          List.takeWhile_cons_of_neg (by rwa [hFirst])]
        rfl

theorem beq_byteOf_of_inside {c d : Char} (hd : d.toNat < 0x80) (hLarge : 0x80 ≤ c.toNat)
    {b : UInt8} (hMem : b ∈ String.utf8EncodeChar c) : (b == byteOf d) = false := by
  have hSame : (b == byteOf d) = (c == d) := agrees_beq hd c b hMem
  rw [hSame]
  refine beq_false_of_ne ?_
  rintro rfl
  omega

/-- The first byte of a text tells the first character from those in ASCII; it is all of the
character if that is in ASCII itself. -/
theorem exists_encode_cons (c : Char) (cs : List Char) :
    ∃ b tail, encode (c :: cs) = b :: tail ∧
      (∀ d : Char, d.toNat < 0x80 → (b == byteOf d) = (c == d)) ∧
      (c.toNat < 0x80 → tail = encode cs) := by
  obtain ⟨b, more, hBytes, hMem⟩ := exists_lead c
  refine ⟨b, more ++ encode cs, by rw [encode_cons, hBytes, List.cons_append], ?_, ?_⟩
  · exact fun d hd => agrees_beq hd c b hMem
  · intro hAscii
    rw [utf8EncodeChar_of_lt hAscii, List.cons.injEq] at hBytes
    rw [← hBytes.2, List.nil_append]

theorem head?_any_encode {p : UInt8 → Bool} {q : Char → Bool} (h : Agrees p q) (cs : List Char) :
    (encode cs).head?.any p = cs.head?.any q := by
  have hByte := any_byte?_of_standsAt h (standsAt_zero cs)
  rwa [byte?, ← List.head?_eq_getElem?] at hByte

end Agrees

/-! ## Loops -/

section Advance

variable {text : List Char} {σ ρ : Type} {pass : σ → Nat → Except ScanFault (ρ ⊕ σ × Nat)}
  {s s' : σ} {i next : Nat}

theorem advance_of_inl {r : ρ} (h : pass s i = .ok (.inl r)) : advance text pass s i = .ok r := by
  rw [advance, h]
  rfl

theorem advance_of_inr (h : pass s i = .ok (.inr (s', next))) (hLess : i < next)
    (hLe : next ≤ size text) : advance text pass s i = advance text pass s' next := by
  rw [advance, h]
  exact if_pos ⟨hLess, hLe⟩

end Advance

end PagePreview.Text
