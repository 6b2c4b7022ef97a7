import Mathlib.Algebra.Order.Ring.Nat
import Mathlib.Tactic.Ring
import Mathlib.Tactic.SplitIfs
import PagePreview.Proofs.Text.Pieces
import PagePreview.Url.Punycode

/-!
# Labels are read back from ASCII

Reading inserts the characters of a label in the order in which writing counts
them, so while a label is written there is at each moment a reader that has
come just as far (`Tracks`).  It holds the characters that have been written,
those with a smaller number and those with the current number up to the place
where writing is; what it still has to count is the `delta` of the writer.

* `readNumber_writeNumber`: a number is read back, whatever follows it.
* `decode_encode`: so is a label.
-/

namespace PagePreview.Url.Punycode

open Text

/-! ## Digits and numbers -/

theorem digitValue?_digit {n : Nat} (h : n < 36) : digitValue? (digit n) = some n := by
  have hAll : ∀ k ∈ List.range 36, digitValue? (digit k) = some k := by decide
  exact hAll n (List.mem_range.mpr h)

theorem isAlphanum_digit {n : Nat} (h : n < 36) : (digit n).isAlphanum = true := by
  have hAll : ∀ k ∈ List.range 36, (digit k).isAlphanum = true := by decide
  exact hAll n (List.mem_range.mpr h)

theorem one_le_threshold (k bias : Nat) : 1 ≤ threshold k bias := by
  unfold threshold tMin tMax
  split
  · omega
  split <;> omega

theorem threshold_le (k bias : Nat) : threshold k bias ≤ 26 := by
  unfold threshold tMin tMax
  split
  · omega
  split <;> omega

/-- A number is written in letters and digits. -/
theorem isAlphanum_of_mem_writeNumber {bias : Nat} {steps k q : Nat} {c : Char}
    (h : c ∈ writeNumber bias steps k q) : c.isAlphanum = true := by
  induction steps generalizing k q with
  | zero => simp [writeNumber] at h
  | succ steps ih =>
      have hPos := one_le_threshold k bias
      have hSmall := threshold_le k bias
      simp only [writeNumber] at h
      split at h
      · obtain rfl := List.mem_singleton.mp h
        exact isAlphanum_digit (by omega)
      · obtain rfl | hMem := List.mem_cons.mp h
        · have hDigit := Nat.mod_lt (q - threshold k bias) (show 0 < base - threshold k bias by
            unfold base; omega)
          exact isAlphanum_digit (by unfold base at *; omega)
        · exact ih hMem

theorem writeNumber_ne_nil (bias steps k q : Nat) : writeNumber bias (steps + 1) k q ≠ [] := by
  simp only [writeNumber]
  split <;> simp

/-- **A number is read back**, added with its weight to what was there, whatever follows it.  With
more steps than its value a number has all its digits. -/
theorem readNumber_writeNumber (bias : Nat) (rest : List Char) {steps q : Nat} (h : q < steps)
    (k weight value : Nat) :
    readNumber bias k weight value (writeNumber bias steps k q ++ rest) =
      some (value + q * weight, rest) := by
  induction steps generalizing k q weight value with
  | zero => omega
  | succ steps ih =>
      have hPos := one_le_threshold k bias
      have hSmall := threshold_le k bias
      simp only [writeNumber]
      split
      · next hLast =>
          rw [List.cons_append, List.nil_append, readNumber]
          simp [digitValue?_digit (show q < 36 by omega), hLast]
      · next hMore =>
          -- the digit is the remainder, and the quotient is written behind it
          have hDigit := Nat.mod_lt (q - threshold k bias) (show 0 < base - threshold k bias by
            unfold base; omega)
          have hParts : threshold k bias + (q - threshold k bias) % (base - threshold k bias) +
              (q - threshold k bias) / (base - threshold k bias) * (base - threshold k bias) = q := by
            have := Nat.mod_add_div' (q - threshold k bias) (base - threshold k bias)
            omega
          have hLess : (q - threshold k bias) / (base - threshold k bias) < steps := by
            have := Nat.div_le_self (q - threshold k bias) (base - threshold k bias)
            omega
          generalize (q - threshold k bias) % (base - threshold k bias) = low at *
          generalize (q - threshold k bias) / (base - threshold k bias) = high at *
          have hValue := digitValue?_digit (show threshold k bias + low < 36 by
            unfold base at hDigit; omega)
          have hNotLast : ¬ threshold k bias + low < threshold k bias := by omega
          rw [List.cons_append, readNumber]
          simp only [hValue, Option.bind_eq_bind, Option.bind_some, if_neg hNotLast, ih hLess]
          rw [← hParts]
          congr 2
          ring

/-! ## A reader beside a writer -/

/-- The reader of a label: what it has put together, and where it has come to. -/
structure Reading where
  label : List Nat
  code : Nat := initialCode
  place : Nat := 0

/-- The reader has come as far as the writer that has gone through `before` for the number `code`
and has `after` still to go through. -/
structure Tracks (code : Nat) (before after : List Nat) (s : State) (r : Reading) : Prop where
  label : r.label = before.filter (· ≤ code) ++ after.filter (· < code)
  handled : s.handled = r.label.length
  code_le : r.code ≤ code
  delta : r.place + s.delta =
    (code - r.code) * (r.label.length + 1) + (before.filter (· ≤ code)).length
  first : s.first = (r.place == 0)

namespace Tracks

variable {code c : Nat} {before after : List Nat} {s : State} {r : Reading}

/-- A character with a smaller number is counted. -/
theorem smaller (h : Tracks code before (c :: after) s r) (hLess : c < code) :
    Tracks code (before ++ [c]) after { s with delta := s.delta + 1 } r where
  label := by
    rw [h.label]
    simp [hLess, Nat.le_of_lt hLess]
  handled := h.handled
  code_le := h.code_le
  delta := by
    have := h.delta
    simp only [List.filter_append, List.length_append]
    simp [Nat.le_of_lt hLess]
    omega
  first := h.first

/-- A character with a larger number is passed over. -/
theorem larger (h : Tracks code before (c :: after) s r) (hLess : code < c) :
    Tracks code (before ++ [c]) after s r where
  label := by
    rw [h.label]
    simp [Nat.not_lt_of_lt hLess, hLess]
  handled := h.handled
  code_le := h.code_le
  delta := by
    rw [h.delta]
    simp [hLess]
  first := h.first


/-- Dividing what has been counted by the places there are gives the number and the place. -/
theorem value_div_mod (h : Tracks code before (code :: after) s r) :
    r.code + (r.place + s.delta) / (r.label.length + 1) = code ∧
      (r.place + s.delta) % (r.label.length + 1) = (before.filter (· ≤ code)).length := by
  have hPlace : (before.filter (· ≤ code)).length < r.label.length + 1 := by
    rw [h.label, List.length_append]
    omega
  have hCode := h.code_le
  rw [h.delta, Nat.add_comm ((code - r.code) * (r.label.length + 1)), Nat.add_mul_mod_self_right,
    Nat.mod_eq_of_lt hPlace, Nat.add_mul_div_right _ _ (Nat.succ_pos _), Nat.div_eq_of_lt hPlace]
  exact ⟨by omega, rfl⟩

/-- A character with the number itself is inserted. -/
theorem equal (h : Tracks code before (code :: after) s r) (bias : Nat) :
    Tracks code (before ++ [code]) after ⟨0, bias, s.handled + 1, false⟩
      ⟨r.label.take (before.filter (· ≤ code)).length ++
        code :: r.label.drop (before.filter (· ≤ code)).length, code,
        (before.filter (· ≤ code)).length + 1⟩ where
  label := by
    rw [h.label, List.take_left, List.drop_left]
    simp
  handled := by
    rw [h.handled]
    simp
    omega
  code_le := Nat.le_refl code
  delta := by simp
  first := by simp

/-- At the end of the label writing goes on with the next number. -/
theorem wrap (h : Tracks code before [] s r) :
    Tracks (code + 1) [] before { s with delta := s.delta + 1 } r where
  label := by
    rw [h.label, List.filter_nil, List.filter_nil, List.append_nil, List.nil_append]
    exact List.filter_congr fun c _ => decide_eq_decide.mpr Nat.lt_succ_iff.symm
  handled := h.handled
  code_le := Nat.le_succ_of_le h.code_le
  delta := by
    have hLabel : (before.filter (· ≤ code)).length = r.label.length := by
      rw [h.label]
      simp
    have hDelta := h.delta
    have hCode := h.code_le
    rw [hLabel] at hDelta
    rw [show code + 1 - r.code = code - r.code + 1 by omega, Nat.add_mul, ← Nat.add_assoc, hDelta]
    simp
    omega
  first := h.first

/-- Numbers that no character has are passed over all at once. -/
theorem skip (h : Tracks code [] after s r) {next : Nat} (hLe : code ≤ next)
    (hNone : ∀ c ∈ after, code ≤ c → next ≤ c) :
    Tracks next [] after { s with delta := s.delta + (next - code) * (s.handled + 1) } r where
  label := by
    rw [h.label]
    simp only [List.filter_nil, List.nil_append]
    refine List.filter_congr fun c hMem => ?_
    have := hNone c hMem
    simp only [decide_eq_decide]
    omega
  handled := h.handled
  code_le := Nat.le_trans h.code_le hLe
  delta := by
    have hDelta := h.delta
    have hCode := h.code_le
    rw [show next - r.code = next - code + (code - r.code) by omega, Nat.add_mul, ← Nat.add_assoc,
      hDelta, h.handled]
    simp
    omega
  first := h.first

end Tracks

/-! ## Reading what is written -/

/-- A number that a character has. -/
def IsCode (n : Nat) : Prop := n < 0xD800 ∨ 0xDFFF < n ∧ n ≤ 0x10FFFF

/-- The reader takes one number and inserts a character. -/
theorem readFrom_writeNumber {code : Nat} {before after : List Nat} {s : State} {r : Reading}
    (h : Tracks code before (code :: after) s r) (hCode : IsCode code) (steps bias : Nat)
    (rest : List Char) :
    readFrom (steps + 1) r.label r.code r.place bias
        (writeNumber bias (s.delta + 1) base s.delta ++ rest) =
      readFrom steps
        (r.label.take (before.filter (· ≤ code)).length ++
          code :: r.label.drop (before.filter (· ≤ code)).length)
        code ((before.filter (· ≤ code)).length + 1) (adapt s.delta (s.handled + 1) s.first) rest := by
  obtain ⟨hDiv, hMod⟩ := h.value_div_mod
  have hValid : ¬ (decide (code > 0x10FFFF) || (decide (0xD800 ≤ code) && decide (code ≤ 0xDFFF))) =
      true := by
    unfold IsCode at hCode
    simp
    omega
  have hText : writeNumber bias (s.delta + 1) base s.delta ++ rest ≠ [] := by
    simp [writeNumber_ne_nil]
  rw [readFrom, readNumber_writeNumber bias rest (Nat.lt_succ_self _)]
  · simp only [Option.bind_eq_bind, Option.bind_some, Nat.mul_one, hDiv, hMod, if_neg hValid,
      Nat.add_sub_cancel_left, h.handled, h.first]
  · exact hText

/-- **Reading goes through a label as writing does.** -/
theorem exists_readFrom_writeCode {code : Nat} (hCode : IsCode code) (rest : List Char)
    {after before : List Nat} {s : State} {r : Reading} (h : Tracks code before after s r)
    {steps : Nat} (hSteps : ((writeCode code after s).1 ++ rest).length ≤ steps) :
    ∃ left r', rest.length ≤ left ∧
      Tracks code (before ++ after) [] (writeCode code after s).2 r' ∧
      readFrom steps r.label r.code r.place s.bias ((writeCode code after s).1 ++ rest) =
        readFrom left r'.label r'.code r'.place (writeCode code after s).2.bias rest := by
  induction after generalizing before s r steps with
  | nil => exact ⟨steps, r, by simpa [writeCode] using hSteps, by simpa [writeCode] using h, rfl⟩
  | cons c after ih =>
      simp only [writeCode] at hSteps ⊢
      split_ifs at hSteps ⊢ with hLess hSame
      · obtain ⟨left, r', hLeft, hTracks, hRead⟩ := ih (h.smaller hLess) hSteps
        exact ⟨left, r', hLeft, by simpa using hTracks, hRead⟩
      · obtain rfl : c = code := by simpa using hSame
        -- the number takes at least one step, and the rest of the text is shorter by it
        have hText : 0 < (writeNumber s.bias (s.delta + 1) base s.delta).length :=
          List.length_pos_iff.mpr (writeNumber_ne_nil _ _ _ _)
        rw [List.append_assoc, List.length_append] at hSteps
        obtain ⟨steps, rfl⟩ : ∃ fewer, steps = fewer + 1 := ⟨steps - 1, by omega⟩
        have hFewer : ((writeCode c after
            ⟨0, adapt s.delta (s.handled + 1) s.first, s.handled + 1, false⟩).1 ++ rest).length ≤
              steps := by omega
        obtain ⟨left, r', hLeft, hTracks, hRead⟩ := ih (h.equal _) hFewer
        refine ⟨left, r', hLeft, by simpa using hTracks, ?_⟩
        rw [List.append_assoc, readFrom_writeNumber h hCode]
        exact hRead
      · have hLarger : code < c := by
          have hOther : c ≠ code := by simpa using hSame
          omega
        obtain ⟨left, r', hLeft, hTracks, hRead⟩ := ih (h.larger hLarger) hSteps
        exact ⟨left, r', hLeft, by simpa using hTracks, hRead⟩

/-- The reader of a whole label is done. -/
theorem readFrom_nil {label : List Nat} {code : Nat} {s : State} {r : Reading}
    (h : Tracks code [] label s r) (hNone : label.filter (code ≤ ·) = []) (steps bias : Nat) :
    readFrom steps r.label r.code r.place bias [] = some label := by
  have hAll : label.filter (· < code) = label := by
    refine List.filter_eq_self.mpr fun c hMem => ?_
    have := List.filter_eq_nil_iff.mp hNone c hMem
    simpa using this
  rw [readFrom, h.label, List.filter_nil, List.nil_append, hAll]

/-- The characters with a number from `code` on are written one number after the other. -/
theorem readFrom_writeFrom {label : List Nat} (hCodes : ∀ c ∈ label, IsCode c) {steps code : Nat}
    (hMany : (label.filter (code ≤ ·)).length ≤ steps) {s : State} {r : Reading}
    (h : Tracks code [] label s r) {readSteps : Nat}
    (hSteps : (writeFrom label steps code s).length ≤ readSteps) :
    readFrom readSteps r.label r.code r.place s.bias (writeFrom label steps code s) =
      some label := by
  induction steps generalizing code s r readSteps with
  | zero => exact readFrom_nil h (List.length_eq_zero_iff.mp (Nat.le_zero.mp hMany)) ..
  | succ steps ih =>
      simp only [writeFrom] at hSteps ⊢
      cases hMin : (label.filter (code ≤ ·)).min? with
      | none => exact readFrom_nil h (List.min?_eq_none_iff.mp hMin) ..
      | some next =>
          obtain ⟨hMem, hLeast⟩ := List.min?_eq_some_iff.mp hMin
          simp only [List.mem_filter, decide_eq_true_eq] at hMem hLeast
          have hSkip := h.skip hMem.2 fun c hIn hLe => hLeast c ⟨hIn, hLe⟩
          have hFewer : (label.filter (next + 1 ≤ ·)).length ≤ steps := by
            have hInner : label.filter (next + 1 ≤ ·) =
                (label.filter (code ≤ ·)).filter (next + 1 ≤ ·) := by
              rw [List.filter_filter]
              refine List.filter_congr fun c _ => ?_
              simp
              omega
            have hLess : ((label.filter (code ≤ ·)).filter (next + 1 ≤ ·)).length <
                (label.filter (code ≤ ·)).length :=
              List.length_filter_lt_length_iff_exists.mpr
                ⟨next, by simp [hMem], by simp⟩
            rw [hInner]
            omega
          rw [hMin] at hSteps
          obtain ⟨left, r', hLeft, hTracks, hRead⟩ :=
            exists_readFrom_writeCode (hCodes next hMem.1) _ hSkip hSteps
          exact hRead.trans (ih hFewer hTracks.wrap hLeft)

/-! ## Labels -/

theorem isAlphanum_of_mem_writeCode {code : Nat} {label : List Nat} {s : State} {c : Char}
    (h : c ∈ (writeCode code label s).1) : c.isAlphanum = true := by
  induction label generalizing s with
  | nil => simp [writeCode] at h
  | cons d label ih =>
      simp only [writeCode] at h
      split_ifs at h
      · exact ih h
      · obtain hMem | hMem := List.mem_append.mp h
        · exact isAlphanum_of_mem_writeNumber hMem
        · exact ih hMem
      · exact ih h

theorem isAlphanum_of_mem_writeFrom {label : List Nat} {steps code : Nat} {s : State} {c : Char}
    (h : c ∈ writeFrom label steps code s) : c.isAlphanum = true := by
  induction steps generalizing code s with
  | zero => simp [writeFrom] at h
  | succ steps ih =>
      simp only [writeFrom] at h
      split at h
      · simp at h
      · obtain hMem | hMem := List.mem_append.mp h
        · exact isAlphanum_of_mem_writeCode hMem
        · exact ih hMem

/-- The last hyphen stands in front of the row of numbers. -/
theorem splitAtHyphen_append (basic : List Char) {row : List Char} (h : '-' ∉ row) :
    splitAtHyphen (basic ++ '-' :: row) = (basic, row) := by
  have hBack : (basic ++ '-' :: row).reverse = row.reverse ++ '-' :: basic.reverse := by simp
  have hAll := all_bne_of_not_mem (fun hMem => h (List.mem_reverse.mp hMem))
  have hStop : ('-' != '-') = false := rfl
  simp only [splitAtHyphen, hBack, takeWhile_append_stop hAll hStop,
    dropWhile_append_stop hAll hStop, List.reverse_reverse]

theorem splitAtHyphen_of_not_mem {row : List Char} (h : '-' ∉ row) :
    splitAtHyphen row = ([], row) := by
  have hAll := all_bne_of_not_mem (fun hMem => h (List.mem_reverse.mp hMem))
  simp only [splitAtHyphen, dropWhile_of_forall hAll]

theorem isCode_toNat (c : Char) : IsCode c.toNat := by
  obtain h | ⟨hLow, hHigh⟩ : c.toNat < 0xD800 ∨ 0xDFFF < c.toNat ∧ c.toNat < 0x110000 := c.valid
  · exact Or.inl h
  · exact Or.inr ⟨hLow, Nat.le_of_lt_succ hHigh⟩

/-- **A label is read back from ASCII.** -/
theorem decode_encode (label : List Char) : decode (encode label) = some label := by
  have hCodes : ∀ n ∈ label.map Char.toNat, IsCode n := by
    intro n hMem
    obtain ⟨c, _, rfl⟩ := List.mem_map.mp hMem
    exact isCode_toNat c
  have hBasic : (label.map Char.toNat).filter (· < initialCode) =
      (label.filter (·.toNat < 128)).map Char.toNat := by
    rw [List.filter_map]
    rfl
  have hTracks : Tracks initialCode [] (label.map Char.toNat)
      { handled := (label.filter (·.toNat < 128)).length }
      { label := (label.filter (·.toNat < 128)).map Char.toNat } :=
    { label := by rw [List.filter_nil, List.nil_append, hBasic]
      handled := by simp
      code_le := Nat.le_refl _
      delta := by simp
      first := rfl }
  have hMany : ((label.map Char.toNat).filter (initialCode ≤ ·)).length ≤ label.length := by
    refine (List.length_filter_le ..).trans ?_
    simp
  have hRead := readFrom_writeFrom hCodes hMany hTracks (Nat.le_refl _)
  have hNone : '-' ∉ writeFrom (label.map Char.toNat) label.length initialCode
      { handled := (label.filter (·.toNat < 128)).length } := fun hMem =>
    absurd (isAlphanum_of_mem_writeFrom hMem) (by decide)
  have hSplit : splitAtHyphen (encode label) = (label.filter (·.toNat < 128),
      writeFrom (label.map Char.toNat) label.length initialCode
        { handled := (label.filter (·.toNat < 128)).length }) := by
    unfold encode
    cases hEmpty : label.filter (·.toNat < 128) with
    | nil =>
        rw [hEmpty] at hNone
        simpa using splitAtHyphen_of_not_mem hNone
    | cons c cs =>
        rw [hEmpty] at hNone
        simpa using splitAtHyphen_append (c :: cs) hNone
  have hAscii : (label.filter (·.toNat < 128)).any (128 ≤ ·.toNat) = false := by
    simp
  have hBack : (label.map Char.toNat).map Char.ofNat = label := by
    simp [Function.comp_def]
  simp only [decode, hSplit, hAscii, Bool.false_eq_true, if_false]
  exact (congrArg (Option.map (·.map Char.ofNat)) hRead).trans (by rw [Option.map_some, hBack])

/-- A label in ASCII consists of characters of the label, letters, digits and hyphens. -/
theorem of_mem_encode {label : List Char} {c : Char} (h : c ∈ encode label) :
    c ∈ label ∨ c = '-' ∨ c.isAlphanum = true := by
  obtain hMem | hMem := List.mem_append.mp h
  · split at hMem
    · simp at hMem
    · simp only [List.mem_append, List.mem_filter, List.mem_singleton] at hMem
      exact hMem.imp And.left Or.inl
  · exact .inr (.inr (isAlphanum_of_mem_writeFrom hMem))

end PagePreview.Url.Punycode
