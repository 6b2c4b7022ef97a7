import Mathlib.Tactic.SplitIfs
import PagePreview.Text.Utf8

/-!
# Reading and writing UTF-8

`next` takes a whole character off the bytes that it was written as
(`next_encode`), whatever follows, so both readers give back every text that
is encoded (`decode?_encode`, `decodeLossy_encode`).

The bytes of a character are digits of its number in base 64 with a mark on
each, and `follow` puts them together again one by one (`follow_tail`).  The
bounds that a first byte sets for the second one are those of the shortest
writing and of the characters that there are; they have to be checked in each
row of the table of first bytes.

No text has a second writing: bytes that are read as a text are the bytes of
that text (`eq_encode_of_decode?`).  A first byte says how many more there are
and what the second one may be (`of_lead?_eq_some`), and every byte that is
taken gives six bits of the number (`exists_of_follow`).  The bounds on the
second byte keep the number out of the ranges of the shorter writings and of
the surrogates, so the character of that number has this many bytes, and these.
-/

namespace PagePreview.Text.Utf8

/-- No character has the number of a surrogate. -/
theorem toNat_valid (c : Char) : c.toNat < 0xD800 ∨ 0xDFFF < c.toNat ∧ c.toNat < 0x110000 := c.valid

theorem encode_cons (c : Char) (cs : List Char) :
    encode (c :: cs) = String.utf8EncodeChar c ++ encode cs := List.flatMap_cons

/-! ## The bytes of a character -/

theorem utf8EncodeChar_eq (c : Char) : String.utf8EncodeChar c =
    if c.toNat ≤ 0x7F then [UInt8.ofNat c.toNat]
    else if c.toNat ≤ 0x7FF then
      [UInt8.ofNat (c.toNat / 64 % 32 + 0xC0), UInt8.ofNat (c.toNat % 64 + 0x80)]
    else if c.toNat ≤ 0xFFFF then
      [UInt8.ofNat (c.toNat / 4096 % 16 + 0xE0), UInt8.ofNat (c.toNat / 64 % 64 + 0x80),
        UInt8.ofNat (c.toNat % 64 + 0x80)]
    else
      [UInt8.ofNat (c.toNat / 262144 % 8 + 0xF0), UInt8.ofNat (c.toNat / 4096 % 64 + 0x80),
        UInt8.ofNat (c.toNat / 64 % 64 + 0x80), UInt8.ofNat (c.toNat % 64 + 0x80)] := rfl

/-- A character up to 127 is its byte. -/
theorem utf8EncodeChar_of_lt {c : Char} (h : c.toNat < 0x80) :
    String.utf8EncodeChar c = [UInt8.ofNat c.toNat] := by
  rw [utf8EncodeChar_eq, if_pos (by omega)]

theorem encode_of_forall_lt {cs : List Char} (h : ∀ c ∈ cs, c.toNat < 0x80) :
    encode cs = cs.map fun c => UInt8.ofNat c.toNat := by
  induction cs with
  | nil => rfl
  | cons c cs ih =>
      rw [List.forall_mem_cons] at h
      rw [encode_cons, utf8EncodeChar_of_lt h.1, ih h.2]
      rfl

/-! ## First bytes -/

section

variable {n : Nat}

theorem toNat_ofNat_of_lt (h : n < 256) : (UInt8.ofNat n).toNat = n := by
  rw [UInt8.toNat_ofNat']
  exact Nat.mod_eq_of_lt h

/-- The table of first bytes, by their numbers. -/
theorem lead?_ofNat (h : n < 256) : lead? (UInt8.ofNat n) =
    if n < 0xC2 then none
    else if n < 0xE0 then some ⟨1, 0x80, 0xBF, n - 0xC0⟩
    else if n = 0xE0 then some ⟨2, 0xA0, 0xBF, 0⟩
    else if n = 0xED then some ⟨2, 0x80, 0x9F, 0xD⟩
    else if n < 0xF0 then some ⟨2, 0x80, 0xBF, n - 0xE0⟩
    else if n = 0xF0 then some ⟨3, 0x90, 0xBF, 0⟩
    else if n < 0xF4 then some ⟨3, 0x80, 0xBF, n - 0xF0⟩
    else if n = 0xF4 then some ⟨3, 0x80, 0x8F, 4⟩
    else none := by
  simp [lead?, UInt8.lt_iff_toNat_lt, ← UInt8.toNat_inj, toNat_ofNat_of_lt h]

theorem next_of_lead? {b low high : UInt8} {more bits : Nat}
    (h : lead? b = some ⟨more, low, high, bits⟩) (bs : List UInt8) :
    next b bs = follow low high 1 more bits bs := by
  have hNot : ¬ b < 0x80 := fun hLess => by
    have hNone : lead? b = none := if_pos (UInt8.lt_trans hLess (by decide))
    simp [hNone] at h
  rw [next, if_neg hNot, h]

/-! ## Bytes that follow -/

variable {bits sum : Nat}

/-- A byte between the bounds adds its digit. -/
theorem follow_ofNat {low high : UInt8} (hLow : low.toNat ≤ n) (hHigh : n ≤ high.toNat)
    (hSum : bits * 64 + (n - 0x80) = sum) (seen more : Nat) (bs : List UInt8) :
    follow low high seen (more + 1) bits (UInt8.ofNat n :: bs) =
      follow 0x80 0xBF (seen + 1) more sum bs := by
  have hNat := toNat_ofNat_of_lt (n := n) (Nat.lt_of_le_of_lt hHigh high.toNat_lt_size)
  rw [follow, if_pos]
  · rw [hNat, hSum]
  · simp [UInt8.le_iff_toNat_le, hNat, hLow, hHigh]

theorem follow_tail (hSum : bits * 64 + n % 64 = sum) (seen more : Nat) (bs : List UInt8) :
    follow 0x80 0xBF seen (more + 1) bits (UInt8.ofNat (n % 64 + 0x80) :: bs) =
      follow 0x80 0xBF (seen + 1) more sum bs :=
  follow_ofNat (by simp) (by simp; omega) (by omega) seen more bs

end

/-! ## Characters -/

theorem follow_zero (low high : UInt8) (seen : Nat) (c : Char) (bs : List UInt8) :
    follow low high seen 0 c.toNat bs = (.char c, bs) := by
  rw [follow, Char.ofNat_toNat]

/-- A character of three bytes, by the row of its first byte: that of 0xE0 leaves out what could be
written with two bytes, that of 0xED the surrogates. -/
theorem next_of_three {n : Nat} (hLow : 0x800 ≤ n) (hHigh : n < 0x10000)
    (hValid : n < 0xD800 ∨ 0xDFFF < n) (bs : List UInt8) :
    next (UInt8.ofNat (n / 4096 % 16 + 0xE0)) (UInt8.ofNat (n / 64 % 64 + 0x80) :: bs) =
      follow 0x80 0xBF 2 1 (n / 64) bs := by
  rw [Nat.mod_eq_of_lt (show n / 4096 < 16 by omega)]
  have hLead := lead?_ofNat (n := n / 4096 + 0xE0) (by omega)
  rw [if_neg (by omega), if_neg (by omega)] at hLead
  obtain hFirst | hFirst | ⟨hFirst, hOther⟩ : n / 4096 = 0 ∨ n / 4096 = 0xD ∨
      n / 4096 ≠ 0 ∧ n / 4096 ≠ 0xD := by omega
  · rw [if_pos (by omega)] at hLead
    rw [next_of_lead? hLead]
    exact follow_ofNat (by simp; omega) (by simp; omega) (by omega) ..
  · rw [if_neg (by omega), if_pos (by omega)] at hLead
    rw [next_of_lead? hLead]
    exact follow_ofNat (by simp) (by simp; omega) (by omega) ..
  · rw [if_neg (by omega), if_neg (by omega), if_pos (by omega)] at hLead
    rw [next_of_lead? hLead]
    exact follow_tail (by omega) ..

/-- A character of four bytes, by the row of its first byte: that of 0xF0 leaves out what could be
written with three bytes, that of 0xF4 what lies behind the last character. -/
theorem next_of_four {n : Nat} (hLow : 0x10000 ≤ n) (hHigh : n < 0x110000) (bs : List UInt8) :
    next (UInt8.ofNat (n / 262144 % 8 + 0xF0)) (UInt8.ofNat (n / 4096 % 64 + 0x80) :: bs) =
      follow 0x80 0xBF 2 2 (n / 4096) bs := by
  rw [Nat.mod_eq_of_lt (show n / 262144 < 8 by omega)]
  have hLead := lead?_ofNat (n := n / 262144 + 0xF0) (by omega)
  rw [if_neg (by omega), if_neg (by omega), if_neg (by omega), if_neg (by omega),
    if_neg (by omega)] at hLead
  obtain hFirst | hFirst | ⟨hFirst, hOther⟩ : n / 262144 = 0 ∨ n / 262144 = 4 ∨
      n / 262144 ≠ 0 ∧ n / 262144 ≠ 4 := by omega
  · rw [if_pos (by omega)] at hLead
    rw [next_of_lead? hLead]
    exact follow_ofNat (by simp; omega) (by simp; omega) (by omega) ..
  · rw [if_neg (by omega), if_neg (by omega), if_pos (by omega)] at hLead
    rw [next_of_lead? hLead]
    exact follow_ofNat (by simp) (by simp; omega) (by omega) ..
  · rw [if_neg (by omega), if_pos (by omega)] at hLead
    rw [next_of_lead? hLead]
    exact follow_tail (by omega) ..

/-- **The bytes of a character are read as that character**, whatever follows them. -/
theorem next_encode (c : Char) (bs : List UInt8) :
    ∃ b tail, String.utf8EncodeChar c = b :: tail ∧ next b (tail ++ bs) = (.char c, bs) := by
  have hValid := toNat_valid c
  rw [utf8EncodeChar_eq]
  split
  · refine ⟨_, [], rfl, ?_⟩
    have hNat := toNat_ofNat_of_lt (n := c.toNat) (by omega)
    rw [next, if_pos (by rw [UInt8.lt_iff_toNat_lt, hNat]; simp; omega), hNat, Char.ofNat_toNat]
    rfl
  split
  · refine ⟨_, _, rfl, ?_⟩
    rw [Nat.mod_eq_of_lt (show c.toNat / 64 < 32 by omega)]
    have hLead := lead?_ofNat (n := c.toNat / 64 + 0xC0) (by omega)
    rw [if_neg (by omega), if_pos (by omega), Nat.add_sub_cancel] at hLead
    rw [next_of_lead? hLead]
    exact (follow_tail (by omega) ..).trans (follow_zero ..)
  split
  · refine ⟨_, _, rfl, ?_⟩
    refine (next_of_three (by omega) (by omega) (by omega) _).trans ?_
    exact (follow_tail (by omega) ..).trans (follow_zero ..)
  · refine ⟨_, _, rfl, ?_⟩
    refine (next_of_four (by omega) (by omega) _).trans ?_
    have hDigit : c.toNat / 4096 * 64 + c.toNat / 64 % 64 = c.toNat / 64 := by omega
    exact (follow_tail hDigit ..).trans ((follow_tail (by omega) ..).trans (follow_zero ..))

/-! ## Texts -/

theorem decodeFrom?_of_next {b : UInt8} {c : Char} {bs rest : List UInt8}
    (h : next b bs = (.char c, rest)) (offset : Nat) :
    decodeFrom? offset (b :: bs) = (decodeFrom? (offset + c.utf8Size) rest).map (c :: ·) := by
  rw [decodeFrom?]
  split <;> simp_all

theorem decodeLossy_of_next {b : UInt8} {c : Char} {bs rest : List UInt8}
    (h : next b bs = (.char c, rest)) : decodeLossy (b :: bs) = c :: decodeLossy rest := by
  rw [decodeLossy]
  split <;> simp_all

/-- **What is encoded is read without a fault.** -/
theorem decodeFrom?_encode (offset : Nat) (cs : List Char) :
    decodeFrom? offset (encode cs) = .ok cs := by
  induction cs generalizing offset with
  | nil => rw [encode, List.flatMap_nil, decodeFrom?]
  | cons c cs ih =>
      obtain ⟨b, tail, hBytes, hNext⟩ := next_encode c (encode cs)
      rw [encode_cons, hBytes, List.cons_append, decodeFrom?_of_next hNext, ih]
      rfl

theorem decode?_encode (cs : List Char) : decode? (encode cs) = .ok cs := decodeFrom?_encode 0 cs

/-- **A text that is encoded is read as it was**, whatever bytes follow it. -/
theorem decodeLossy_encode_append (cs : List Char) (bs : List UInt8) :
    decodeLossy (encode cs ++ bs) = cs ++ decodeLossy bs := by
  induction cs with
  | nil => rfl
  | cons c cs ih =>
      obtain ⟨b, tail, hBytes, hNext⟩ := next_encode c (encode cs ++ bs)
      rw [encode_cons, hBytes, List.append_assoc, List.cons_append, decodeLossy_of_next hNext, ih]
      rfl

theorem decodeLossy_encode (cs : List Char) : decodeLossy (encode cs) = cs := by
  have hRead := decodeLossy_encode_append cs []
  rwa [List.append_nil, decodeLossy, List.append_nil] at hRead

/-! ## Bytes that are taken -/

/-- A first byte of two, three or four: its own bits, and what it demands of the second byte. -/
theorem of_lead?_eq_some {b : UInt8} {l : Lead} (h : lead? b = some l) :
    0x80 ≤ l.low.toNat ∧ l.high.toNat ≤ 0xBF ∧
      (l.more = 1 ∧ b.toNat = l.bits + 0xC0 ∧ 2 ≤ l.bits ∧ l.bits < 32 ∨
        l.more = 2 ∧ b.toNat = l.bits + 0xE0 ∧ l.bits < 16 ∧ (l.bits = 0 → 0xA0 ≤ l.low.toNat) ∧
          (l.bits = 13 → l.high.toNat ≤ 0x9F) ∨
        l.more = 3 ∧ b.toNat = l.bits + 0xF0 ∧ l.bits ≤ 4 ∧ (l.bits = 0 → 0x90 ≤ l.low.toNat) ∧
          (l.bits = 4 → l.high.toNat ≤ 0x8F)) := by
  rw [← UInt8.ofNat_toNat (x := b), lead?_ofNat b.toNat_lt_size] at h
  split_ifs at h
  all_goals
    obtain rfl := Option.some.inj h
    simp
    omega

/-- A byte that is taken lies between the bounds and gives six bits. -/
theorem exists_of_follow {low high : UInt8} {seen more bits : Nat} {bs rest : List UInt8} {c : Char}
    (h : follow low high seen (more + 1) bits bs = (.char c, rest)) :
    ∃ b tail, bs = b :: tail ∧ low.toNat ≤ b.toNat ∧ b.toNat ≤ high.toNat ∧
      follow 0x80 0xBF (seen + 1) more (bits * 64 + (b.toNat - 0x80)) tail = (.char c, rest) := by
  cases bs with
  | nil => simp [follow] at h
  | cons b tail =>
      rw [follow] at h
      split_ifs at h with hBounds
      · simp only [Bool.and_eq_true, decide_eq_true_eq, UInt8.le_iff_toNat_le] at hBounds
        exact ⟨b, tail, rfl, hBounds.1, hBounds.2, h⟩
      · simp at h

theorem of_follow_zero {low high : UInt8} {seen bits : Nat} {bs rest : List UInt8} {c : Char}
    (h : follow low high seen 0 bits bs = (.char c, rest)) : c = Char.ofNat bits ∧ rest = bs := by
  rw [follow] at h
  obtain ⟨hChar, hRest⟩ := Prod.mk.inj h
  exact ⟨(Piece.char.inj hChar).symm, hRest.symm⟩

/-! ## Characters by their numbers -/

theorem toNat_ofNat_of_valid {n : Nat} (h : n < 0xD800 ∨ 0xDFFF < n ∧ n < 0x110000) :
    (Char.ofNat n).toNat = n := by
  have hValid : n.isValidChar := h
  rw [Char.ofNat, dif_pos hValid]
  rfl

theorem eq_ofNat_of_toNat {b : UInt8} {n : Nat} (h : b.toNat = n) : b = UInt8.ofNat n := by
  rw [← h, UInt8.ofNat_toNat]

/-- **A character is read off its own bytes only.** -/
theorem eq_utf8EncodeChar_append_of_next {b : UInt8} {bs rest : List UInt8} {c : Char}
    (h : next b bs = (.char c, rest)) : b :: bs = String.utf8EncodeChar c ++ rest := by
  unfold next at h
  split at h
  · next hAscii =>
      obtain ⟨hChar, rfl⟩ := Prod.mk.inj h
      obtain rfl := (Piece.char.inj hChar).symm
      have hLess : b.toNat < 0x80 := UInt8.lt_iff_toNat_lt.mp hAscii
      have hNat := toNat_ofNat_of_valid (n := b.toNat) (by omega)
      rw [utf8EncodeChar_of_lt (by omega), hNat, UInt8.ofNat_toNat]
      rfl
  · split at h
    · simp at h
    · next l hLead =>
        obtain ⟨hLow, hHigh, hRow⟩ := of_lead?_eq_some hLead
        rcases hRow with ⟨hMore, hFirst, hBits⟩ | ⟨hMore, hFirst, hBits⟩ | ⟨hMore, hFirst, hBits⟩
        · -- two bytes
          rw [hMore] at h
          obtain ⟨b₁, tail, rfl, hLow₁, hHigh₁, h⟩ := exists_of_follow h
          obtain ⟨hChar, hRest⟩ := of_follow_zero h
          have hNat := toNat_ofNat_of_valid (n := l.bits * 64 + (b₁.toNat - 0x80)) (by omega)
          rw [hChar, hRest, utf8EncodeChar_eq, hNat, if_neg (by omega), if_pos (by omega),
            ← eq_ofNat_of_toNat (b := b), ← eq_ofNat_of_toNat (b := b₁)]
          · rfl
          · omega
          · omega
        · -- three bytes
          rw [hMore] at h
          obtain ⟨b₁, tail, rfl, hLow₁, hHigh₁, h⟩ := exists_of_follow h
          obtain ⟨b₂, tail, rfl, hLow₂, hHigh₂, h⟩ := exists_of_follow h
          obtain ⟨hChar, hRest⟩ := of_follow_zero h
          simp only [UInt8.reduceToNat] at hLow₂ hHigh₂
          have hNat := toNat_ofNat_of_valid
            (n := (l.bits * 64 + (b₁.toNat - 0x80)) * 64 + (b₂.toNat - 0x80)) (by omega)
          rw [hChar, hRest, utf8EncodeChar_eq, hNat, if_neg (by omega), if_neg (by omega),
            if_pos (by omega), ← eq_ofNat_of_toNat (b := b), ← eq_ofNat_of_toNat (b := b₁),
            ← eq_ofNat_of_toNat (b := b₂)]
          · rfl
          · omega
          · omega
          · omega
        · -- four bytes
          rw [hMore] at h
          obtain ⟨b₁, tail, rfl, hLow₁, hHigh₁, h⟩ := exists_of_follow h
          obtain ⟨b₂, tail, rfl, hLow₂, hHigh₂, h⟩ := exists_of_follow h
          obtain ⟨b₃, tail, rfl, hLow₃, hHigh₃, h⟩ := exists_of_follow h
          obtain ⟨hChar, hRest⟩ := of_follow_zero h
          simp only [UInt8.reduceToNat] at hLow₂ hHigh₂ hLow₃ hHigh₃
          have hNat := toNat_ofNat_of_valid (n := ((l.bits * 64 + (b₁.toNat - 0x80)) * 64 +
            (b₂.toNat - 0x80)) * 64 + (b₃.toNat - 0x80)) (by omega)
          rw [hChar, hRest, utf8EncodeChar_eq, hNat, if_neg (by omega), if_neg (by omega),
            if_neg (by omega), ← eq_ofNat_of_toNat (b := b), ← eq_ofNat_of_toNat (b := b₁),
            ← eq_ofNat_of_toNat (b := b₂), ← eq_ofNat_of_toNat (b := b₃)]
          · rfl
          · omega
          · omega
          · omega
          · omega

/-! ## Texts that are read -/

theorem eq_encode_of_decodeFrom? {offset : Nat} {bs : List UInt8} {cs : List Char}
    (h : decodeFrom? offset bs = .ok cs) : bs = encode cs := by
  fun_induction decodeFrom? offset bs generalizing cs with
  | case1 offset =>
      obtain rfl := Except.ok.inj h
      rfl
  | case2 offset b bs c rest hNext hLength ih =>
      cases hRest : decodeFrom? (offset + c.utf8Size) rest with
      | error e => simp [hRest, Except.map] at h
      | ok ds =>
          simp only [hRest, Except.map, Except.ok.injEq] at h
          rw [← h, encode_cons, ← ih hRest]
          exact eq_utf8EncodeChar_append_of_next hNext
  | case3 => simp at h
  | case4 => simp at h

/-- A text in front is read off its own bytes if none of it stands for a fault. -/
theorem exists_append_of_decodeLossy {bs : List UInt8} {front back : List Char}
    (h : decodeLossy bs = front ++ back) (hKnown : '\uFFFD' ∉ front) :
    ∃ rest, bs = encode front ++ rest ∧ decodeLossy rest = back := by
  induction front generalizing bs with
  | nil => exact ⟨bs, rfl, h⟩
  | cons c front ih =>
      obtain ⟨hFirst, hFront⟩ := List.ne_and_not_mem_of_not_mem_cons hKnown
      rw [decodeLossy.eq_def] at h
      split at h
      · exact absurd h (by simp)
      · split at h
        · next b bs d rest hNext =>
            obtain ⟨rfl, hRest⟩ := List.cons_eq_cons.mp h
            obtain ⟨behind, rfl, hBehind⟩ := ih hRest hFront
            refine ⟨behind, ?_, hBehind⟩
            rw [eq_utf8EncodeChar_append_of_next hNext, encode_cons, List.append_assoc]
        · exact absurd (List.cons_eq_cons.mp h).1 hFirst

/-- **Only what was written is read.** -/
theorem eq_encode_of_decode? {bs : List UInt8} {cs : List Char} (h : decode? bs = .ok cs) :
    bs = encode cs :=
  eq_encode_of_decodeFrom? h

end PagePreview.Text.Utf8
