import Mathlib.Algebra.Group.Nat.Defs
import Mathlib.Tactic.SplitIfs
import PagePreview.Text.Hex

/-!
# Hexadecimal digits

A number is read from the digits that it is written with (`toDigits_spec`),
and the number of digits bounds what is read (`foldl_value?_lt`).
-/

namespace PagePreview.Text.Hex

/-- The value of a digit, told by the number of its character. -/
theorem value?_eq (c : Char) : value? c =
    if 48 ≤ c.toNat ∧ c.toNat ≤ 57 then some (c.toNat - 48)
    else if 97 ≤ c.toNat ∧ c.toNat ≤ 102 then some (c.toNat - 87)
    else if 65 ≤ c.toNat ∧ c.toNat ≤ 70 then some (c.toNat - 55) else none := by
  have hLe (d : Char) : d ≤ c ↔ d.toNat ≤ c.toNat := Iff.rfl
  have hGe (d : Char) : c ≤ d ↔ c.toNat ≤ d.toNat := Iff.rfl
  simp only [value?, Bool.and_eq_true, decide_eq_true_eq, hLe, hGe]
  rfl

/-- A digit is a character of ASCII, and its value is below sixteen. -/
theorem of_value?_eq_some {c : Char} {n : Nat} (h : value? c = some n) :
    n < 16 ∧ 48 ≤ c.toNat ∧ c.toNat < 0x80 := by
  rw [value?_eq] at h
  split_ifs at h <;> (injection h; omega)

/-- A digit is the one of its value, in upper or in lower case. -/
theorem eq_of_value?_eq_some {c : Char} {n : Nat} (h : value? c = some n) :
    c = upper n ∨ c = lower n := by
  have hOf : ∀ m, m = c.toNat → c = Char.ofNat m := by
    intro m hm
    rw [hm, Char.ofNat_toNat]
  rw [value?_eq] at h
  split_ifs at h with hDigit hSmall hCapital
  · injection h with hn
    refine Or.inl ?_
    rw [upper, if_pos (show n < 10 by omega)]
    exact hOf _ (by omega)
  · injection h with hn
    refine Or.inr ?_
    rw [lower, if_neg (show ¬ n < 10 by omega)]
    exact hOf _ (by omega)
  · injection h with hn
    refine Or.inl ?_
    rw [upper, if_neg (show ¬ n < 10 by omega)]
    exact hOf _ (by omega)

theorem value?_digitChar {n : Nat} (h : n < 16) : value? n.digitChar = some n := by
  have hAll : ∀ k ∈ List.range 16, value? k.digitChar = some k := by decide
  exact hAll n (List.mem_range.mpr h)

/-- A number is read from its hexadecimal digits. -/
theorem toDigits_spec (n : Nat) : read? (Nat.toDigits 16 n) = some n ∧
    ∀ c ∈ Nat.toDigits 16 n, (value? c).isSome = true := by
  induction n using Nat.strongRecOn with
  | _ n ih =>
      by_cases hSmall : n < 16
      · have hDigit := value?_digitChar hSmall
        simp [Nat.toDigits_of_lt_base hSmall, read?, hDigit]
      · obtain ⟨hRead, hDigits⟩ := ih (n / 16) (by omega)
        have hLast := value?_digitChar (show n % 16 < 16 by omega)
        rw [Nat.toDigits_of_base_le (by decide) (by omega)]
        constructor
        · simp only [read?, List.foldl_append] at hRead ⊢
          rw [hRead]
          simp [hLast]
          omega
        · intro c hMem
          obtain hMem | hMem := List.mem_append.mp hMem
          · exact hDigits c hMem
          · obtain rfl := List.mem_singleton.mp hMem
            simp [hLast]

/-- Some digits behind a number make it that much larger. -/
theorem foldl_value?_lt {digits : List Char} {acc n : Nat}
    (h : digits.foldl (fun acc c => do some ((← acc) * 16 + (← value? c))) (some acc) = some n) :
    n < (acc + 1) * 16 ^ digits.length := by
  induction digits generalizing acc with
  | nil =>
      obtain rfl : acc = n := by simpa using h
      simp
  | cons c digits ih =>
      cases hValue : value? c with
      | none =>
          have hNone : digits.foldl (fun acc c => do some ((← acc) * 16 + (← value? c))) none =
              none := by
            clear h ih
            induction digits with
            | nil => rfl
            | cons d digits ih => exact ih
          rw [List.foldl_cons, hValue] at h
          exact absurd (hNone.symm.trans h) (by simp)
      | some d =>
          have hDigit := (of_value?_eq_some hValue).1
          have hRest : n < (acc * 16 + d + 1) * 16 ^ digits.length :=
            ih (by simpa [hValue] using h)
          have hFactor : (acc * 16 + d + 1) * 16 ^ digits.length ≤
              (acc + 1) * 16 * 16 ^ digits.length := Nat.mul_le_mul_right _ (by omega)
          rw [List.length_cons, Nat.pow_succ, Nat.mul_comm (16 ^ digits.length), ← Nat.mul_assoc]
          omega

end PagePreview.Text.Hex
