import PagePreview.Proofs.Text.HexDigits
import PagePreview.Proofs.Url.HostNames
import PagePreview.Url.Host

/-!
# Hosts that are numbers

An address of 32 bits is written as four numbers and one of 128 bits as eight,
of which a row of zeros may be left out.  Both are read back as they were
(`ipv4?_ipv4Chars`, `ipv6?_ipv6Chars`), and only such addresses are ever read
(`lt_of_ipv4?`, `IsIpv6.of_ipv6?`).
-/

namespace PagePreview.Url

open Text

/-! ## Addresses of 32 bits -/

/-- The decimal digits of a byte. -/
theorem ipv4Part?_natDigits {n : Nat} (h : n < 256) :
    Decimal.natDigits n ≠ [] ∧ (Decimal.natDigits n).all Char.isDigit = true ∧
      ipv4Part? (Decimal.natDigits n) = some n := by
  have hAll : ∀ k < 256, Decimal.natDigits k ≠ [] ∧ (Decimal.natDigits k).all Char.isDigit = true ∧
      ipv4Part? (Decimal.natDigits k) = some k := by decide +kernel
  exact hAll n h

/-- The four bytes of an address, the highest first. -/
def ipv4Bytes (address : Nat) : List Nat :=
  [address / 256 ^ 3 % 256, address / 256 ^ 2 % 256, address / 256 % 256, address % 256]

theorem lt_of_mem_ipv4Bytes {a n : Nat} (h : n ∈ ipv4Bytes a) : n < 256 := by
  simp only [ipv4Bytes, List.mem_cons, List.not_mem_nil, or_false] at h
  omega

theorem ipv4Chars_eq (a : Nat) :
    ipv4Chars a = Idna.joinLabels ((ipv4Bytes a).map Decimal.natDigits) := by
  simp [ipv4Chars, ipv4Bytes, Idna.joinLabels]

section

variable (a : Nat)

theorem natDigits_ipv4Bytes (digits : List Char)
    (h : digits ∈ (ipv4Bytes a).map Decimal.natDigits) :
    digits ≠ [] ∧ ∀ c ∈ digits, c.isDigit = true := by
  obtain ⟨n, hMem, rfl⟩ := List.mem_map.mp h
  obtain ⟨hSome, hDigits, _⟩ := ipv4Part?_natDigits (lt_of_mem_ipv4Bytes hMem)
  exact ⟨hSome, List.all_eq_true.mp hDigits⟩

theorem labels_ipv4Chars :
    Idna.labels (ipv4Chars a) = (ipv4Bytes a).map Decimal.natDigits := by
  rw [ipv4Chars_eq, Idna.labels_joinLabels (by simp [ipv4Bytes])]
  intro digits hDigits hMem
  exact absurd ((natDigits_ipv4Bytes a digits hDigits).2 _ hMem) (by decide)

theorem dropLastEmpty_ipv4Chars :
    dropLastEmpty (Idna.labels (ipv4Chars a)) = (ipv4Bytes a).map Decimal.natDigits := by
  rw [labels_ipv4Chars, dropLastEmpty, if_neg]
  have hLast := (natDigits_ipv4Bytes a (Decimal.natDigits (a % 256)) (by simp [ipv4Bytes])).1
  simp [ipv4Bytes, hLast]

theorem endsInNumber_ipv4Chars : endsInNumber (ipv4Chars a) = true := by
  have hLast := natDigits_ipv4Bytes a (Decimal.natDigits (a % 256)) (by simp [ipv4Bytes])
  rw [endsInNumber, dropLastEmpty_ipv4Chars]
  simp [ipv4Bytes, hLast.1]
  exact Or.inl hLast.2

end

/-- **An address of 32 bits is read back.** -/
theorem ipv4?_ipv4Chars {a : Nat} (h : a < 2 ^ 32) : ipv4? (ipv4Chars a) = some a := by
  have hNumbers : ((ipv4Bytes a).map Decimal.natDigits).mapM ipv4Part? = some (ipv4Bytes a) := by
    rw [List.mapM_map]
    exact mapM_eq_some_self fun n hMem => (ipv4Part?_natDigits (lt_of_mem_ipv4Bytes hMem)).2.2
  simp only [ipv4?, dropLastEmpty_ipv4Chars, hNumbers, Option.bind_eq_bind, Option.bind_some]
  simp [ipv4Bytes]
  omega

/-- Bytes in front of a last part leave room for it. -/
theorem foldl_bytes_le {front : List Nat} (hBytes : ∀ n ∈ front, n ≤ 255) {i : Nat}
    (hFew : i + front.length ≤ 4) (sum : Nat) :
    (front.zipIdx i).foldl (fun sum (n, i) => sum + n * 256 ^ (3 - i)) sum +
      256 ^ (4 - (i + front.length)) ≤ sum + 256 ^ (4 - i) := by
  induction front generalizing i sum with
  | nil => simp
  | cons n front ih =>
      rw [List.forall_mem_cons] at hBytes
      rw [List.length_cons] at hFew
      have hRest := ih hBytes.2 (show i + 1 + front.length ≤ 4 by omega) (sum + n * 256 ^ (3 - i))
      have hByte : n * 256 ^ (3 - i) ≤ 255 * 256 ^ (3 - i) := Nat.mul_le_mul_right _ hBytes.1
      have hPower : 256 ^ (4 - i) = 256 ^ (3 - i) * 256 := by
        rw [← Nat.pow_succ, show (3 - i).succ = 4 - i by omega]
      rw [List.zipIdx_cons, List.foldl_cons, List.length_cons,
        show i + (front.length + 1) = i + 1 + front.length by omega]
      rw [show 4 - (i + 1) = 3 - i by omega] at hRest
      dsimp only at hRest ⊢
      omega

/-- **No other addresses are read.** -/
theorem lt_of_ipv4? {name : List Char} {a : Nat} (h : ipv4? name = some a) : a < 2 ^ 32 := by
  simp only [ipv4?, Option.bind_eq_bind] at h
  split at h
  · simp at h
  · next hFour =>
      cases hNumbers : (dropLastEmpty (Idna.labels name)).mapM ipv4Part? with
      | none => simp [hNumbers] at h
      | some numbers =>
          have hLength := (of_mapM_eq_some hNumbers).1
          simp only [hNumbers, Option.bind_some, Option.bind_eq_some_iff] at h
          obtain ⟨last, _, h⟩ := h
          split_ifs at h with hLarge
          simp only [Bool.or_eq_true, not_or, List.any_eq_true, decide_eq_true_eq, not_exists,
            not_and, Nat.not_lt, Nat.not_le, Nat.pow_eq] at hLarge
          have hFew : 0 + numbers.dropLast.length ≤ 4 := by
            rw [List.length_dropLast]
            omega
          have hSum := foldl_bytes_le hLarge.1 hFew last
          have hLast := hLarge.2
          obtain rfl := Option.some.inj h
          simp only [Nat.zero_add, Nat.sub_zero] at hSum
          have hBits : 256 ^ 4 = 2 ^ 32 := by decide
          rw [hBits] at hSum
          simp only [Nat.pow_eq]
          omega

/-! ## Pieces of addresses of 128 bits -/

/-- Sixteen bits. -/
def IsPiece (n : Nat) : Prop := n < 16 ^ 4

/-- What can follow a piece. -/
def EndsPiece (rest : List Char) : Prop := ∀ c cs, rest = c :: cs → (Hex.value? c).isSome = false

theorem hexPiece_toDigits {p : Nat} (hPiece : IsPiece p) {rest : List Char}
    (hRest : EndsPiece rest) : hexPiece (Nat.toDigits 16 p ++ rest) = (p, rest) := by
  obtain ⟨hRead, hDigits⟩ := Hex.toDigits_spec p
  have hShort : (Nat.toDigits 16 p).length ≤ 4 :=
    (Nat.length_toDigits_le_iff (by decide) (by decide)).mpr hPiece
  have hTaken : ((Nat.toDigits 16 p ++ rest).take 4).takeWhile (fun c => (Hex.value? c).isSome) =
      Nat.toDigits 16 p := by
    have hStop : (rest.take (4 - (Nat.toDigits 16 p).length)).takeWhile
        (fun c => (Hex.value? c).isSome) = [] := by
      cases rest with
      | nil => simp
      | cons c cs =>
          cases 4 - (Nat.toDigits 16 p).length with
          | zero => simp
          | succ m => simp [hRest c cs rfl]
    rw [List.take_append, List.take_of_length_le hShort, List.takeWhile_append_of_pos hDigits,
      hStop, List.append_nil]
  simp only [hexPiece, hTaken, hRead, Option.getD_some, List.drop_left]

/-! ## Reading pieces -/

/-- What a reader of pieces has come to after some more of them. -/
def withPieces (ps before : List Nat) : Option (List Nat) → List Nat × Option (List Nat)
  | none => (ps.reverse ++ before, none)
  | some late => (before, some (ps.reverse ++ late))

section

variable {p : Nat} (hPiece : IsPiece p) (steps : Nat) (before : List Nat)
  (after : Option (List Nat))

theorem endsPiece_colon (rest : List Char) : EndsPiece (':' :: rest) := by
  rintro c cs hEq
  obtain ⟨rfl, _⟩ := List.cons.inj hEq
  decide

include hPiece

theorem ipv6From_last :
    ipv6From (steps + 1) before after (Nat.toDigits 16 p) = some (withPieces [p] before after) := by
  have hRead : hexPiece (Nat.toDigits 16 p ++ []) = (p, []) :=
    hexPiece_toDigits hPiece (by rintro c cs h; simp at h)
  rw [List.append_nil] at hRead
  have hLength := Nat.length_toDigits_pos (b := 16) (n := p)
  rw [ipv6From]
  · simp only [hRead, List.length_nil]
    rw [if_neg (by simpa using Nat.ne_of_lt hLength)]
    cases after <;> rfl
  · exact Nat.toDigits_ne_nil

theorem ipv6From_next {c : Char} (hColon : c ≠ ':') (cs : List Char) :
    ipv6From (steps + 1) before after (Nat.toDigits 16 p ++ ':' :: c :: cs) =
      ipv6From steps (withPieces [p] before after).1 (withPieces [p] before after).2 (c :: cs) := by
  have hRead := hexPiece_toDigits hPiece (endsPiece_colon (c :: cs))
  have hLength := Nat.length_toDigits_pos (b := 16) (n := p)
  rw [ipv6From]
  · simp only [hRead]
    rw [if_neg (by simp)]
    split
    · next hEq => simp at hEq
    · next hEq => simp at hEq
    · next hEq => simp [hColon] at hEq
    · next hEq => simp at hEq
    · next more _ _ hEq =>
        obtain rfl : c :: cs = more := by simpa using hEq
        cases after <;> rfl
    · next hNone => exact absurd rfl (hNone _)
  · simp

theorem ipv6From_gap (rest : List Char) :
    ipv6From (steps + 1) before none (Nat.toDigits 16 p ++ ':' :: ':' :: rest) =
      ipv6From steps (p :: before) (some []) rest := by
  have hRead := hexPiece_toDigits hPiece (endsPiece_colon (':' :: rest))
  have hLength := Nat.length_toDigits_pos (b := 16) (n := p)
  rw [ipv6From]
  · simp only [hRead]
    rw [if_neg (by simp)]
  · simp

end

section

variable {ps qs : List Nat} (hPieces : ∀ p ∈ ps, IsPiece p)

theorem piecesChars_cons_cons (p q : Nat) (ps : List Nat) :
    piecesChars (p :: q :: ps) = Nat.toDigits 16 p ++ ':' :: piecesChars (q :: ps) := by
  rw [piecesChars]
  simp

/-- A row of pieces begins with a digit. -/
theorem exists_piecesChars_cons (p : Nat) (ps : List Nat) :
    ∃ c cs, piecesChars (p :: ps) = c :: cs ∧ c ≠ ':' := by
  obtain ⟨c, cs, hDigits⟩ := List.exists_cons_of_ne_nil (Nat.toDigits_ne_nil (b := 16) (n := p))
  have hColon : c ≠ ':' := by
    rintro rfl
    exact absurd ((Hex.toDigits_spec p).2 ':' (by simp [hDigits])) (by decide)
  cases ps with
  | nil => exact ⟨c, cs, hDigits, hColon⟩
  | cons q ps =>
      rw [piecesChars_cons_cons, hDigits]
      exact ⟨c, _, rfl, hColon⟩

theorem withPieces_cons (p : Nat) (ps before : List Nat) (after : Option (List Nat)) :
    withPieces (p :: ps) before after =
      withPieces ps (withPieces [p] before after).1 (withPieces [p] before after).2 := by
  cases after <;> simp [withPieces]

include hPieces

/-- All pieces are read up to the end of the text. -/
theorem ipv6From_piecesChars {steps : Nat} (hSteps : ps.length < steps) (before : List Nat)
    (after : Option (List Nat)) :
    ipv6From steps before after (piecesChars ps) = some (withPieces ps before after) := by
  induction ps generalizing steps before after with
  | nil =>
      obtain ⟨steps, rfl⟩ := Nat.exists_eq_add_of_lt hSteps
      cases after <;> rfl
  | cons p ps ih =>
      rw [List.forall_mem_cons] at hPieces
      rw [List.length_cons] at hSteps
      obtain ⟨steps, rfl⟩ := Nat.exists_eq_add_of_le' (show 1 ≤ steps by omega)
      cases ps with
      | nil => exact ipv6From_last hPieces.1 steps before after
      | cons q ps =>
          obtain ⟨c, cs, hChars, hColon⟩ := exists_piecesChars_cons q ps
          rw [piecesChars_cons_cons, hChars, ipv6From_next hPieces.1 _ _ _ hColon, ← hChars,
            ih hPieces.2 (by omega), ← withPieces_cons]

/-- All pieces are read up to a gap. -/
theorem ipv6From_piecesChars_gap (hSome : ps ≠ []) (steps : Nat) (before : List Nat)
    (rest : List Char) :
    ipv6From (ps.length + steps) before none (piecesChars ps ++ ':' :: ':' :: rest) =
      ipv6From steps (ps.reverse ++ before) (some []) rest := by
  induction ps generalizing before with
  | nil => exact absurd rfl hSome
  | cons p ps ih =>
      rw [List.forall_mem_cons] at hPieces
      cases ps with
      | nil =>
          rw [List.length_singleton, Nat.add_comm]
          exact ipv6From_gap hPieces.1 steps before rest
      | cons q ps =>
          obtain ⟨c, cs, hChars, hColon⟩ := exists_piecesChars_cons q ps
          rw [piecesChars_cons_cons, List.append_assoc, List.cons_append, hChars, List.cons_append,
            List.length_cons, Nat.add_right_comm, ipv6From_next hPieces.1 _ _ _ hColon,
            ← List.cons_append, ← hChars]
          simpa [withPieces] using ih hPieces.2 (by simp) (p :: before)

end

/-! ## The row of zeros that is left out -/

/-- A row that is left out has at least two pieces, and they are zeros. -/
theorem of_longestGap {ps : List Nat} {i n : Nat} (h : longestGap ps = some (i, n)) :
    2 ≤ n ∧ ps = ps.take i ++ List.replicate n 0 ++ ps.drop (i + n) := by
  have hRun : ∀ j m, longestGap ps = some (j, m) → 2 ≤ m ∧ m = zeroRun (ps.drop j) := by
    refine List.foldlRecOn (motive := fun best => ∀ j m, best = some (j, m) →
      2 ≤ m ∧ m = zeroRun (ps.drop j)) _ _ (by simp) fun best hBest (k, r) hMem j m hNext => ?_
    obtain ⟨_, _, hPlace⟩ := List.mem_map.mp hMem
    obtain ⟨rfl, rfl⟩ := Prod.mk.inj hPlace
    cases best with
    | none =>
        dsimp only at hNext
        split_ifs at hNext with hTwo
        obtain ⟨rfl, rfl⟩ := Prod.mk.inj (Option.some.inj hNext)
        exact ⟨hTwo, rfl⟩
    | some old =>
        obtain ⟨hTwo, _⟩ := hBest old.1 old.2 rfl
        dsimp only at hNext
        split_ifs at hNext with hLonger
        · obtain ⟨rfl, rfl⟩ := Prod.mk.inj (Option.some.inj hNext)
          exact ⟨by omega, rfl⟩
        · exact hBest j m hNext
  obtain ⟨hTwo, hZeros⟩ := hRun i n h
  refine ⟨hTwo, ?_⟩
  have hReplicate : (ps.drop i).takeWhile (· == 0) = List.replicate n 0 := by
    refine List.eq_replicate_iff.mpr ⟨hZeros.symm, fun p hMem => ?_⟩
    simpa using List.mem_takeWhile_imp hMem
  have hRow : ps.drop i = List.replicate n 0 ++ (ps.drop i).dropWhile (· == 0) := by
    rw [← hReplicate, List.takeWhile_append_dropWhile]
  have hRest : ps.drop (i + n) = (ps.drop i).dropWhile (· == 0) := by
    rw [← List.drop_drop, hRow, List.drop_left' List.length_replicate, ← hRow]
  rw [hRest, List.append_assoc, ← hRow, List.take_append_drop]

/-! ## Addresses of 128 bits -/

/-- An address of 128 bits. -/
structure IsIpv6 (ps : List Nat) : Prop where
  length_eq : ps.length = 8
  pieces : ∀ p ∈ ps, IsPiece p

/-- A gap behind some pieces, or at the front, and pieces behind it. -/
theorem ipv6?_gap {before after : List Nat} (hBefore : ∀ p ∈ before, IsPiece p)
    (hAfter : ∀ p ∈ after, IsPiece p) (hFew : before.length + after.length < 8) :
    ipv6? (piecesChars before ++ ':' :: ':' :: piecesChars after) =
      some (before ++ List.replicate (8 - (before.length + after.length)) 0 ++ after) := by
  cases before with
  | nil =>
      have hRead : ipv6From 9 [] (some []) (piecesChars after) =
          some (withPieces after [] (some [])) :=
        ipv6From_piecesChars hAfter (by simp at hFew; omega) [] (some [])
      rw [List.length_nil, Nat.zero_add] at hFew
      simp [piecesChars, ipv6?, hRead, withPieces, hFew]
  | cons p rest =>
      have hGap := ipv6From_piecesChars_gap hBefore (by simp) (9 - (p :: rest).length) []
        (piecesChars after)
      rw [ipv6From_piecesChars hAfter (by omega), Nat.add_sub_cancel' (by omega)] at hGap
      obtain ⟨c, cs, hChars, hColon⟩ := exists_piecesChars_cons p rest
      rw [hChars, List.cons_append] at hGap ⊢
      rw [List.length_cons] at hFew
      rw [ipv6?]
      · simp [hGap, withPieces, hFew]
      all_goals simp [hColon]

/-- **An address of 128 bits is read back.** -/
theorem ipv6?_ipv6Chars {ps : List Nat} (h : IsIpv6 ps) : ipv6? (ipv6Chars ps) = some ps := by
  obtain ⟨hLength, hPieces⟩ := h
  unfold ipv6Chars
  split
  · have hRead : ipv6From 9 [] none (piecesChars ps) = some (withPieces ps [] none) :=
      ipv6From_piecesChars hPieces (by omega) [] none
    obtain ⟨p, rest, rfl⟩ := List.exists_cons_of_length_eq_add_one hLength
    obtain ⟨c, cs, hChars, hColon⟩ := exists_piecesChars_cons p rest
    rw [hChars] at hRead ⊢
    rw [List.length_cons] at hLength
    rw [ipv6?]
    · simp [hRead, withPieces, hLength]
    all_goals simp [hColon]
  · next i n hGap =>
      obtain ⟨hTwo, hRow⟩ := of_longestGap hGap
      have hCount := congrArg List.length hRow
      rw [List.length_append, List.length_append, List.length_replicate, hLength] at hCount
      rw [ipv6?_gap (fun p hMem => hPieces p (List.mem_of_mem_take hMem))
        (fun p hMem => hPieces p (List.mem_of_mem_drop hMem)) (by omega)]
      rw [show 8 - ((ps.take i).length + (ps.drop (i + n)).length) = n by omega, ← hRow]

/-! ## What is read is an address of 128 bits -/

theorem isPiece_hexPiece (cs : List Char) : IsPiece (hexPiece cs).1 := by
  simp only [hexPiece, IsPiece]
  generalize hDigits : (cs.take 4).takeWhile (fun c => (Hex.value? c).isSome) = digits
  have hShort : digits.length ≤ 4 := by
    rw [← hDigits]
    exact (List.takeWhile_sublist _).length_le.trans (by simp)
  cases hRead : Hex.read? digits with
  | none => decide
  | some n =>
      have hLess := Hex.foldl_value?_lt hRead
      rw [Nat.zero_add, Nat.one_mul] at hLess
      exact hLess.trans_le (Nat.pow_le_pow_right (by decide) hShort)

theorem isPiece_of_dottedPieces? {cs : List Char} {ps : List Nat} (h : dottedPieces? cs = some ps) :
    ∀ p ∈ ps, IsPiece p := by
  simp only [dottedPieces?, Option.bind_eq_bind, Option.bind_eq_some_iff] at h
  obtain ⟨bytes, hBytes, h⟩ := h
  split at h
  · next a b c d =>
      have hByte : ∀ n ∈ [a, b, c, d], n ≤ 255 := by
        intro n hMem
        obtain ⟨part, _, hPart⟩ := (of_mapM_eq_some hBytes).2 n hMem
        split_ifs at hPart with hDigits hLess
        obtain rfl := Option.some.inj hPart
        exact hLess
      obtain rfl := Option.some.inj h
      simp only [List.forall_mem_cons] at hByte
      simp only [IsPiece, List.forall_mem_cons]
      refine ⟨?_, ?_, by simp⟩ <;> omega
  · simp at h

theorem isPiece_withPieces {ps before : List Nat} {after : Option (List Nat)}
    (hNew : ∀ p ∈ ps, IsPiece p) (hOld : ∀ p ∈ before ++ after.getD [], IsPiece p) :
    ∀ p ∈ (withPieces ps before after).1 ++ (withPieces ps before after).2.getD [], IsPiece p := by
  intro p hMem
  cases after with
  | none =>
      obtain hMem | hMem : p ∈ ps ∨ p ∈ before := by simpa [withPieces] using hMem
      · exact hNew p hMem
      · exact hOld p (by simp [hMem])
  | some late =>
      obtain hMem | hMem | hMem : p ∈ before ∨ p ∈ ps ∨ p ∈ late := by simpa [withPieces] using hMem
      · exact hOld p (by simp [hMem])
      · exact hNew p hMem
      · exact hOld p (by simp [hMem])

/-- A reader of pieces has pieces only. -/
theorem isPiece_of_ipv6From {steps : Nat} {before b : List Nat} {after a : Option (List Nat)}
    {cs : List Char} (h : ipv6From steps before after cs = some (b, a))
    (hPieces : ∀ p ∈ before ++ after.getD [], IsPiece p) : ∀ p ∈ b ++ a.getD [], IsPiece p := by
  induction steps generalizing before after cs with
  | zero => simp [ipv6From] at h
  | succ steps ih =>
      cases cs with
      | nil =>
          obtain ⟨rfl, rfl⟩ := by simpa [ipv6From] using h
          exact hPieces
      | cons c cs =>
          have hFirst : ∀ p ∈ [(hexPiece (c :: cs)).1], IsPiece p := by
            simpa using isPiece_hexPiece (c :: cs)
          have hNext := isPiece_withPieces hFirst hPieces
          rw [ipv6From] at h
          · simp only at h
            split_ifs at h
            split at h
            · -- the last piece
              have hLast : withPieces [(hexPiece (c :: cs)).1] before after = (b, a) := by
                cases after <;> simpa [withPieces] using h
              rwa [hLast] at hNext
            · -- four bytes
              obtain ⟨ps, hBytes, h⟩ := Option.map_eq_some_iff.mp h
              have hLast : withPieces ps before after = (b, a) := by
                cases after <;> simpa [withPieces] using h
              have hAll := isPiece_withPieces (isPiece_of_dottedPieces? hBytes) hPieces
              rwa [hLast] at hAll
            · -- a gap
              cases after with
              | none => exact ih h (by simpa [withPieces] using hNext)
              | some late => simp at h
            · simp at h
            · -- one more piece
              cases after with
              | none => exact ih h hNext
              | some late => exact ih h hNext
            · simp at h
          · simp

/-- **No other addresses of 128 bits are read.** -/
theorem IsIpv6.of_ipv6? {cs : List Char} {ps : List Nat} (h : ipv6? cs = some ps) : IsIpv6 ps := by
  simp only [ipv6?, Option.bind_eq_bind, Option.bind_eq_some_iff] at h
  obtain ⟨⟨before, after⟩, hRead, h⟩ := h
  have hPieces : ∀ p ∈ before ++ after.getD [], IsPiece p := by
    split at hRead
    · exact isPiece_of_ipv6From hRead (by simp)
    · simp at hRead
    · simp at hRead
    · exact isPiece_of_ipv6From hRead (by simp)
  cases after with
  | none =>
      dsimp only at h
      split_ifs at h with hEight
      obtain rfl := Option.some.inj h
      exact ⟨by simpa using hEight, fun p hMem => hPieces p (by simpa using hMem)⟩
  | some late =>
      dsimp only at h
      split_ifs at h with hFew
      obtain rfl := Option.some.inj h
      refine ⟨by simp; omega, fun p hMem => ?_⟩
      simp only [List.mem_append, List.mem_reverse, List.mem_replicate] at hMem
      obtain (hMem | ⟨_, rfl⟩) | hMem := hMem
      · exact hPieces p (by simp [hMem])
      · simp [IsPiece]
      · exact hPieces p (by simp [hMem])

end PagePreview.Url
