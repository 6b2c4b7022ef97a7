import Mathlib.Tactic.SplitIfs
import PagePreview.Text.Base64

/-!
# Reading and writing base64

Bytes are written in groups of three, and each group is read on its own: the
last one by `decodeLast`, the ones before it by `decodeFrom`.  A group is a
number in base 256 that is written in base 64, so reading it back is a
statement on digits (`byte_eq`).

* `decode_encode`: what is written is read without a fault.
* `forall_isSign_encode`: all that is written is symbols and padding.
* `eq_encode_of_decode`: bytes have one writing.  Symbols and values correspond
  to each other, and in each kind of group the bits that the reader takes are
  all the bits that there are: in a short last group the others are zero and
  padding stands for what is missing.
-/

namespace PagePreview.Text.Base64

/-! ## Symbols -/

/-- Padding is no symbol. -/
theorem symbol_ne_padding {n : Nat} (h : n < 64) : symbol n ≠ padding := by
  intro hEq
  have hValue : value? padding = some n := hEq ▸ value?_symbol h
  exact absurd hValue (by simp [value?, padding])

/-- A byte that occurs in what is written. -/
def IsSign (b : UInt8) : Prop := b = padding ∨ ∃ n, n < 64 ∧ b = symbol n

theorem isSign_padding : IsSign padding := Or.inl rfl

/-- A number that is too large is written as the largest value. -/
theorem isSign_symbol (n : Nat) : IsSign (symbol n) := by
  by_cases h : n < 64
  · exact Or.inr ⟨n, h, rfl⟩
  · refine Or.inr ⟨63, by decide, ?_⟩
    simp [symbol, show ¬ n < 26 by omega, show ¬ n < 52 by omega, show ¬ n < 62 by omega,
      show n ≠ 62 by omega]

/-- What holds of padding and of every symbol holds of every sign. -/
theorem IsSign.of_forall {P : UInt8 → Prop} (hPadding : P padding)
    (hSymbol : ∀ n ∈ List.range 64, P (symbol n)) {b : UInt8} (h : IsSign b) : P b := by
  rcases h with rfl | ⟨n, hLess, rfl⟩
  · exact hPadding
  · exact hSymbol n (List.mem_range.mpr hLess)

/-! ## Groups

Three bytes `a`, `b` and `c` are one number, and so are the values `w`, `x`, `y` and `z` of their
symbols.  A byte takes bits of two symbols, and what it is given too much is cut off. -/

section

variable {a b c : UInt8} {w x y z : Nat}

theorem byte_eq {n : Nat} (h : n % 256 = a.toNat) : byte n = a := by
  rw [byte, ← UInt8.ofNat_toNat (x := a), ← h, ← UInt8.toNat_inj]
  simp

/-- A last group of one byte. -/
theorem decodeLast_two (hw : w < 64) (hx : x < 64) (ha : (w * 4 + x / 16) % 256 = a.toNat)
    (hRest : x % 16 = 0) (offset : Nat) :
    decodeLast offset [symbol w, symbol x, padding, padding] = .ok [a] := by
  simp [decodeLast, values, value?_symbol, symbol_ne_padding, Except.map, hw, hx, hRest,
    byte_eq ha]

/-- A last group of two bytes. -/
theorem decodeLast_three (hw : w < 64) (hx : x < 64) (hy : y < 64)
    (ha : (w * 4 + x / 16) % 256 = a.toNat) (hb : (x * 16 + y / 4) % 256 = b.toNat)
    (hRest : y % 4 = 0) (offset : Nat) :
    decodeLast offset [symbol w, symbol x, symbol y, padding] = .ok [a, b] := by
  simp [decodeLast, values, value?_symbol, symbol_ne_padding, Except.map, hw, hx, hy, hRest,
    byte_eq ha, byte_eq hb]

/-- A last group of three bytes. -/
theorem decodeLast_four (hw : w < 64) (hx : x < 64) (hy : y < 64) (hz : z < 64)
    (ha : (w * 4 + x / 16) % 256 = a.toNat) (hb : (x * 16 + y / 4) % 256 = b.toNat)
    (hc : (y * 64 + z) % 256 = c.toNat) (offset : Nat) :
    decodeLast offset [symbol w, symbol x, symbol y, symbol z] = .ok [a, b, c] := by
  simp [decodeLast, values, value?_symbol, symbol_ne_padding, Except.map, hw, hx, hy, hz,
    byte_eq ha, byte_eq hb, byte_eq hc]

/-- A group that is not the last one. -/
theorem decodeFrom_four (hw : w < 64) (hx : x < 64) (hy : y < 64) (hz : z < 64)
    (ha : (w * 4 + x / 16) % 256 = a.toNat) (hb : (x * 16 + y / 4) % 256 = b.toNat)
    (hc : (y * 64 + z) % 256 = c.toNat) {signs rest : List UInt8} (hSome : signs ≠ [])
    {offset : Nat} (hMore : decodeFrom (offset + 4) signs = .ok rest) :
    decodeFrom offset (symbol w :: symbol x :: symbol y :: symbol z :: signs) =
      .ok (a :: b :: c :: rest) := by
  obtain ⟨sign, signs, rfl⟩ := List.exists_cons_of_ne_nil hSome
  have hValues : values offset [symbol w, symbol x, symbol y, symbol z] = .ok [w, x, y, z] := by
    simp [values, value?_symbol, Except.map, hw, hx, hy, hz]
  rw [decodeFrom, hValues]
  show (decodeFrom (offset + 4) (sign :: signs)).bind _ = _
  rw [hMore]
  simp only [Except.bind, byte_eq ha, byte_eq hb, byte_eq hc]

end

/-! ## Texts -/

theorem encode_eq_nil_iff {bs : List UInt8} : encode bs = [] ↔ bs = [] := by
  fun_cases encode bs <;> simp

/-- **Groups are read as they were written**, wherever they stand. -/
theorem decodeFrom_encode (offset : Nat) (bs : List UInt8) :
    decodeFrom offset (encode bs) = .ok bs := by
  induction bs using encode.induct generalizing offset with
  | case1 a b c rest ih =>
      have ha := a.toNat_lt
      have hb := b.toNat_lt
      have hc := c.toNat_lt
      cases rest with
      | nil =>
          exact decodeLast_four (by omega) (by omega) (by omega) (by omega) (by omega) (by omega)
            (by omega) offset
      | cons d rest =>
          exact decodeFrom_four (by omega) (by omega) (by omega) (by omega) (by omega) (by omega)
            (by omega) (mt encode_eq_nil_iff.mp (List.cons_ne_nil d rest)) (ih (offset + 4))
  | case2 a b =>
      have ha := a.toNat_lt
      have hb := b.toNat_lt
      exact decodeLast_three (by omega) (by omega) (by omega) (by omega) (by omega) (by omega)
        offset
  | case3 a =>
      have ha := a.toNat_lt
      exact decodeLast_two (by omega) (by omega) (by omega) (by omega) offset
  | case4 => rfl

theorem length_encode_mod (bs : List UInt8) : (encode bs).length % 4 = 0 := by
  induction bs using encode.induct with
  | case1 a b c rest ih =>
      rw [encode]
      simp only [List.length_cons]
      omega
  | case2 a b => simp [encode]
  | case3 a => simp [encode]
  | case4 => simp [encode]

/-- **What is written is read without a fault.** -/
theorem decode_encode (bs : List UInt8) : decode (encode bs) = .ok bs := by
  rw [decode]
  split
  · next b hLast =>
      have hLength := length_encode_mod bs
      have hWhole : ¬ ((encode bs).length % 4 == 1 && b != padding && (value? b).isNone) = true := by
        simp [hLength]
      rw [if_neg hWhole, decodeFrom_encode]
  · next hNone =>
      have hNil : encode bs = [] := List.getLast?_eq_none_iff.mp hNone
      rw [encode_eq_nil_iff.mp hNil]

/-- **All that is written is symbols and padding.** -/
theorem forall_isSign_encode (bs : List UInt8) : ∀ b ∈ encode bs, IsSign b := by
  induction bs using encode.induct with
  | case1 a b c rest ih =>
      rw [encode]
      simp only [List.forall_mem_cons]
      exact ⟨isSign_symbol _, isSign_symbol _, isSign_symbol _, isSign_symbol _, ih⟩
  | case2 a b =>
      rw [encode]
      simp only [List.forall_mem_cons]
      exact ⟨isSign_symbol _, isSign_symbol _, isSign_symbol _, isSign_padding, by simp⟩
  | case3 a =>
      rw [encode]
      simp only [List.forall_mem_cons]
      exact ⟨isSign_symbol _, isSign_symbol _, isSign_padding, isSign_padding, by simp⟩
  | case4 => simp [encode]

/-! ## Symbols that are read -/

/-- A byte with a value is the symbol of that value. -/
theorem of_value?_eq_some {b : UInt8} {n : Nat} (h : value? b = some n) : n < 64 ∧ b = symbol n := by
  have hAll : ∀ k ∈ List.range 256, ((value? (UInt8.ofNat k)).all fun n =>
      decide (n < 64 ∧ UInt8.ofNat k = symbol n)) = true := by decide +kernel
  have hByte := hAll b.toNat (List.mem_range.mpr b.toNat_lt)
  rw [UInt8.ofNat_toNat, h] at hByte
  simpa using hByte

/-- What has values is a row of symbols. -/
theorem of_values_eq_ok {offset : Nat} {bs : List UInt8} {ns : List Nat}
    (h : values offset bs = .ok ns) : (∀ n ∈ ns, n < 64) ∧ bs = ns.map symbol := by
  induction bs generalizing offset ns with
  | nil =>
      obtain rfl := Except.ok.inj h
      exact ⟨by simp, rfl⟩
  | cons b bs ih =>
      rw [values] at h
      cases hByte : value? b with
      | none => simp [hByte] at h
      | some n =>
          rw [hByte] at h
          cases hRest : values (offset + 1) bs with
          | error e => simp [hRest, Except.map] at h
          | ok ms =>
              simp only [hRest, Except.map, Except.ok.injEq] at h
              subst h
              obtain ⟨hLess, hSymbol⟩ := of_value?_eq_some hByte
              obtain ⟨hAll, hSymbols⟩ := ih hRest
              rw [hSymbol, hSymbols]
              exact ⟨List.forall_mem_cons.mpr ⟨hLess, hAll⟩, rfl⟩

/-! ## Groups that are read -/

section

variable {w x y z : Nat}

theorem toNat_byte (n : Nat) : (byte n).toNat = n % 256 := by
  simp [byte]

/-- A group of four symbols is the writing of the three bytes that are read from it. -/
theorem encode_four (hw : w < 64) (hx : x < 64) (hy : y < 64) (hz : z < 64) (rest : List UInt8) :
    encode (byte (w * 4 + x / 16) :: byte (x * 16 + y / 4) :: byte (y * 64 + z) :: rest) =
      symbol w :: symbol x :: symbol y :: symbol z :: encode rest := by
  rw [encode]
  simp only [toNat_byte]
  have hNumber : (w * 4 + x / 16) % 256 * 65536 + (x * 16 + y / 4) % 256 * 256 +
      (y * 64 + z) % 256 = w * 262144 + x * 4096 + y * 64 + z := by omega
  rw [hNumber]
  have h1 : (w * 262144 + x * 4096 + y * 64 + z) / 262144 = w := by omega
  have h2 : (w * 262144 + x * 4096 + y * 64 + z) / 4096 % 64 = x := by omega
  have h3 : (w * 262144 + x * 4096 + y * 64 + z) / 64 % 64 = y := by omega
  have h4 : (w * 262144 + x * 4096 + y * 64 + z) % 64 = z := by omega
  rw [h1, h2, h3, h4]

/-- A last group of three symbols, the last one without bits of its own. -/
theorem encode_three (hw : w < 64) (hx : x < 64) (hy : y < 64) (hBits : y % 4 = 0) :
    encode [byte (w * 4 + x / 16), byte (x * 16 + y / 4)] =
      [symbol w, symbol x, symbol y, padding] := by
  rw [encode]
  simp only [toNat_byte]
  have hNumber : (w * 4 + x / 16) % 256 * 1024 + (x * 16 + y / 4) % 256 * 4 =
      w * 4096 + x * 64 + y := by omega
  rw [hNumber]
  have h1 : (w * 4096 + x * 64 + y) / 4096 = w := by omega
  have h2 : (w * 4096 + x * 64 + y) / 64 % 64 = x := by omega
  have h3 : (w * 4096 + x * 64 + y) % 64 = y := by omega
  rw [h1, h2, h3]

/-- A last group of two symbols, the last one with two bits only. -/
theorem encode_two (hw : w < 64) (hx : x < 64) (hBits : x % 16 = 0) :
    encode [byte (w * 4 + x / 16)] = [symbol w, symbol x, padding, padding] := by
  rw [encode]
  simp only [toNat_byte]
  have hNumber : (w * 4 + x / 16) % 256 * 16 = w * 64 + x := by omega
  rw [hNumber]
  have h1 : (w * 64 + x) / 64 = w := by omega
  have h2 : (w * 64 + x) % 64 = x := by omega
  rw [h1, h2]

end

/-! ## Texts that are read -/

/-- A row of nothing but padding is told by its length. -/
theorem eq_replicate_padding {bs : List UInt8} (h : bs.any (· != padding) = false) :
    bs = List.replicate bs.length padding := by
  refine List.eq_replicate_iff.mpr ⟨rfl, ?_⟩
  intro b hb
  simpa using List.any_eq_false.mp h b hb

/-- The last group is the writing of what is read from it. -/
theorem eq_encode_of_decodeLast {offset : Nat} {bs bytes : List UInt8} (hLength : bs.length ≤ 4)
    (h : decodeLast offset bs = .ok bytes) : bs = encode bytes := by
  unfold decodeLast at h
  dsimp only at h
  split at h
  · simp at h
  · next ns hValues =>
      obtain ⟨hLess, hSymbols⟩ := of_values_eq_ok hValues
      have hWhole : bs = ns.map symbol ++ bs.dropWhile (· != padding) := by
        rw [← hSymbols, List.takeWhile_append_dropWhile]
      generalize bs.dropWhile (· != padding) = rest at h hWhole
      rw [hWhole] at hLength ⊢
      simp only [List.length_append, List.length_map] at hLength
      by_cases hFault : (!rest.isEmpty && (decide (ns.length < 2) || rest.any (· != padding))) = true
      · rw [if_pos hFault] at h
        simp at h
      rw [if_neg hFault] at h
      -- behind the symbols there is padding only, and none without two symbols
      have hRest : rest = List.replicate rest.length padding := by
        cases rest with
        | nil => rfl
        | cons b rest =>
            refine eq_replicate_padding ?_
            simp only [List.isEmpty_cons, Bool.not_false, Bool.true_and, Bool.or_eq_true, not_or,
              Bool.not_eq_true] at hFault
            exact hFault.2
      split at h
      · have hNone : rest = [] := by simpa using hFault
        rw [hNone, ← Except.ok.inj h]
        rfl
      · simp at h
      · next w x =>
          obtain ⟨hw, hx⟩ : w < 64 ∧ x < 64 := by simpa using hLess
          split_ifs at h with hCount hBits
          have hTwo : rest.length = 2 := by simpa using hCount
          have hZero : x % 16 = 0 := by simpa using hBits
          rw [hRest, hTwo, ← Except.ok.inj h, encode_two hw hx hZero]
          rfl
      · next w x y =>
          obtain ⟨hw, hx, hy⟩ : w < 64 ∧ x < 64 ∧ y < 64 := by simpa using hLess
          split_ifs at h with hCount hBits
          have hOne : rest.length = 1 := by simpa using hCount
          have hZero : y % 4 = 0 := by simpa using hBits
          rw [hRest, hOne, ← Except.ok.inj h, encode_three hw hx hy hZero]
          rfl
      · next w x y z more =>
          obtain ⟨hw, hx, hy, hz, -⟩ : w < 64 ∧ x < 64 ∧ y < 64 ∧ z < 64 ∧ ∀ n ∈ more, n < 64 := by
            simpa using hLess
          simp only [List.length_cons] at hLength
          have hMore : more = [] := List.length_eq_zero_iff.mp (by omega)
          have hNone : rest = [] := List.length_eq_zero_iff.mp (by omega)
          rw [hMore, hNone, ← Except.ok.inj h, encode_four hw hx hy hz]
          rfl

/-- So are the groups in front of it. -/
theorem eq_encode_of_decodeFrom {offset : Nat} {bs bytes : List UInt8}
    (h : decodeFrom offset bs = .ok bytes) : bs = encode bytes := by
  fun_induction decodeFrom offset bs generalizing bytes with
  | case1 offset a b c d e rest ih =>
      cases hValues : values offset [a, b, c, d] with
      | error fault => simp [hValues, bind, Except.bind] at h
      | ok ns =>
          obtain ⟨hLess, hSymbols⟩ := of_values_eq_ok hValues
          obtain ⟨w, x, y, z, rfl⟩ : ∃ w x y z, ns = [w, x, y, z] := by
            have hLength : ns.length = 4 := by simpa using (congrArg List.length hSymbols).symm
            match ns, hLength with
            | [w, x, y, z], _ => exact ⟨w, x, y, z, rfl⟩
          obtain ⟨hw, hx, hy, hz⟩ : w < 64 ∧ x < 64 ∧ y < 64 ∧ z < 64 := by simpa using hLess
          obtain ⟨rfl, rfl, rfl, rfl⟩ : a = symbol w ∧ b = symbol x ∧ c = symbol y ∧ d = symbol z := by
            simpa using hSymbols
          cases hMore : decodeFrom (offset + 4) (e :: rest) with
          | error fault => simp [hValues, hMore, bind, Except.bind] at h
          | ok more =>
              simp only [hValues, hMore, bind, Except.bind, Except.ok.injEq] at h
              rw [← h, encode_four hw hx hy hz, ← ih hMore]
  | case2 offset bs hShort =>
      refine eq_encode_of_decodeLast ?_ h
      match bs with
      | [] | [_] | [_, _] | [_, _, _] | [_, _, _, _] => simp
      | a :: b :: c :: d :: e :: rest => exact absurd rfl (hShort a b c d e rest)

/-- **Only what was written is read.** -/
theorem eq_encode_of_decode {bs bytes : List UInt8} (h : decode bs = .ok bytes) :
    bs = encode bytes := by
  unfold decode at h
  split at h
  · split_ifs at h
    exact eq_encode_of_decodeFrom h
  · next hNone =>
      obtain rfl := Except.ok.inj h
      exact List.getLast?_eq_none_iff.mp hNone

end PagePreview.Text.Base64
