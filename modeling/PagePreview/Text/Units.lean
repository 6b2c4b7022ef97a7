/-!
# Units of 16 bits

Some programs count and cut texts in units of 16 bits, of which a character
beyond the first 65536 takes two, a high and a low one. A unit that has lost
its partner stands for no character and is read back as U+FFFD.
-/

namespace PagePreview.Text.Units

def isHigh (u : Nat) : Bool := 0xD800 ≤ u && u ≤ 0xDBFF

def isLow (u : Nat) : Bool := 0xDC00 ≤ u && u ≤ 0xDFFF

/-- The units of a character. -/
def ofChar (c : Char) : List Nat :=
  let n := c.toNat
  if n < 0x10000 then [n] else [0xD800 + (n - 0x10000) / 0x400, 0xDC00 + (n - 0x10000) % 0x400]

def ofChars (cs : List Char) : List Nat := cs.flatMap ofChar

/-- The character that two units stand for. -/
def joined (high low : Nat) : Char :=
  Char.ofNat (0x10000 + (high - 0xD800) * 0x400 + (low - 0xDC00))

/-- The character that a unit on its own stands for. -/
def single (u : Nat) : Char := if isHigh u || isLow u then '\uFFFD' else Char.ofNat u

def toChars : List Nat → List Char
  | [] => []
  | [u] => [single u]
  | h :: l :: us =>
    if isHigh h && isLow l then joined h l :: toChars us else single h :: toChars (l :: us)

def ofString (s : String) : List Nat := ofChars s.toList

/-- As `toChars`, behind characters that have been read before and stand in reverse. -/
def toCharsBehind (before : List Char) : List Nat → List Char
  | [] => before.reverse
  | [u] => (single u :: before).reverse
  | h :: l :: us =>
    if isHigh h && isLow l then toCharsBehind (joined h l :: before) us
    else toCharsBehind (single h :: before) (l :: us)

theorem toCharsBehind_eq (before : List Char) (us : List Nat) :
    toCharsBehind before us = before.reverse ++ toChars us := by
  fun_induction toCharsBehind before us <;> simp_all [toChars]

def toString (us : List Nat) : String := String.ofList (toCharsBehind [] us)

/-- How many units a text takes. -/
def count (s : String) : Nat :=
  s.toList.foldl (fun n c => if c.toNat < 0x10000 then n + 1 else n + 2) 0

/-- Reading the units of a text gives the text. -/
theorem toChars_ofChars (cs : List Char) : toChars (ofChars cs) = cs := by
  induction cs with
  | nil => rfl
  | cons c cs ih =>
    have bound : c.toNat < 0x110000 := by
      rcases c.valid with h | h
      · exact Nat.lt_trans h (by decide)
      · exact h.2
    have gap : ¬ (0xD800 ≤ c.toNat ∧ c.toNat ≤ 0xDFFF) := by
      rcases c.valid with h | h
      · have : c.toNat < 0xD800 := h
        omega
      · have : 0xDFFF < c.toNat := h.1
        omega
    have same : Char.ofNat c.toNat = c := Char.ofNat_toNat c
    by_cases small : c.toNat < 0x10000
    · have lone : (isHigh c.toNat || isLow c.toNat) = false := by
        simp only [isHigh, isLow, Bool.or_eq_false_iff, Bool.and_eq_false_iff, decide_eq_false_iff_not]
        omega
      have first : isHigh c.toNat = false := (Bool.or_eq_false_iff.1 lone).1
      have head : ofChars (c :: cs) = c.toNat :: ofChars cs := by
        simp [ofChars, ofChar, small]
      rw [head]
      cases h : ofChars cs with
      | nil =>
        rw [h] at ih
        simp only [toChars] at ih ⊢
        rw [← ih]
        simp [single, lone, same]
      | cons u us =>
        rw [h] at ih
        simp only [toChars, first, Bool.false_and, Bool.false_eq_true, if_false, ih]
        simp [single, lone, same]
    · have head : ofChars (c :: cs) =
          (0xD800 + (c.toNat - 0x10000) / 0x400) :: (0xDC00 + (c.toNat - 0x10000) % 0x400) ::
            ofChars cs := by
        simp [ofChars, ofChar, small]
      have high : isHigh (0xD800 + (c.toNat - 0x10000) / 0x400) = true := by
        simp only [isHigh, Bool.and_eq_true, decide_eq_true_eq]
        omega
      have low : isLow (0xDC00 + (c.toNat - 0x10000) % 0x400) = true := by
        simp only [isLow, Bool.and_eq_true, decide_eq_true_eq]
        omega
      have value : 0x10000 + (0xD800 + (c.toNat - 0x10000) / 0x400 - 0xD800) * 0x400 +
          (0xDC00 + (c.toNat - 0x10000) % 0x400 - 0xDC00) = c.toNat := by omega
      rw [head]
      simp only [toChars, high, low, Bool.and_true, if_true, ih]
      unfold joined
      rw [value, same]

end PagePreview.Text.Units
