/-!
# Hexadecimal digits
-/

namespace PagePreview.Text.Hex

/-- The value of a digit of either case. -/
def value? (c : Char) : Option Nat :=
  if '0' ≤ c && c ≤ '9' then some (c.toNat - 48)
  else if 'a' ≤ c && c ≤ 'f' then some (c.toNat - 87)
  else if 'A' ≤ c && c ≤ 'F' then some (c.toNat - 55)
  else none

/-- The digit of a value below sixteen, in upper case. -/
def upper (n : Nat) : Char := if n < 10 then Char.ofNat (48 + n) else Char.ofNat (55 + n)

/-- The digit of a value below sixteen, in lower case. -/
def lower (n : Nat) : Char := if n < 10 then Char.ofNat (48 + n) else Char.ofNat (87 + n)

theorem value?_upper {n : Nat} (h : n < 16) : value? (upper n) = some n := by
  have all : ∀ k ∈ List.range 16, value? (upper k) = some k := by decide
  exact all n (List.mem_range.mpr h)

theorem value?_lower {n : Nat} (h : n < 16) : value? (lower n) = some n := by
  have all : ∀ k ∈ List.range 16, value? (lower k) = some k := by decide
  exact all n (List.mem_range.mpr h)

/-- The value of a row of digits, most significant first. -/
def read? (cs : List Char) : Option Nat :=
  cs.foldl (fun acc c => do some ((← acc) * 16 + (← value? c))) (some 0)

/-- Two digits in upper case. -/
def byteUpper (b : UInt8) : List Char := [upper (b.toNat / 16), upper (b.toNat % 16)]

/-- The digits of `n` in lower case, at least `width` of them. -/
def digits (width n : Nat) : List Char :=
  let ds := Nat.toDigits 16 n
  List.replicate (width - ds.length) '0' ++ ds

end PagePreview.Text.Hex
