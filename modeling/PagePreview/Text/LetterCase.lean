/-!
# Capital and small letters

Letters come in two cases in the alphabets of Europe. In most of these the
capitals lie a fixed distance before the small letters, or take turns with
them.
-/

namespace PagePreview.Text

/-- Alphabets whose capital letters lie a fixed distance before the small ones: the range of the
capitals and the distance. -/
def shiftedCapitals : List (Nat × Nat × Nat) :=
  [(0x41, 0x5A, 32), (0xC0, 0xD6, 32), (0xD8, 0xDE, 32), (0x388, 0x38A, 37), (0x391, 0x3A1, 32),
    (0x3A3, 0x3AB, 32), (0x400, 0x40F, 80), (0x410, 0x42F, 32), (0x531, 0x556, 48),
    (0xFF21, 0xFF3A, 32)]

/-- Ranges in which capital and small letters take turns; the capitals are the even ones, or the
odd ones. -/
def pairedCapitals : List (Nat × Nat × Nat) :=
  [(0x100, 0x12F, 0), (0x132, 0x137, 0), (0x139, 0x148, 1), (0x14A, 0x177, 0), (0x179, 0x17E, 1),
    (0x1DE, 0x1EF, 0), (0x1F8, 0x21F, 0), (0x222, 0x233, 0), (0x370, 0x373, 0), (0x3D8, 0x3EF, 0),
    (0x460, 0x481, 0), (0x48A, 0x4BF, 0), (0x4C1, 0x4CE, 1), (0x4D0, 0x52F, 0),
    (0x1E00, 0x1E95, 0), (0x1EA0, 0x1EFF, 0)]

/-- The small letter of a capital one; any other character stands for itself. -/
def smallLetter (n : Nat) : Nat :=
  match shiftedCapitals.find? fun (low, high, _) => low ≤ n && n ≤ high with
  | some (_, _, shift) => n + shift
  | none =>
    if pairedCapitals.any fun (low, high, parity) => low ≤ n && n ≤ high && n % 2 == parity then
      n + 1
    else n

/-- The capital letter of a small one. -/
def capitalLetter (n : Nat) : Nat :=
  match shiftedCapitals.find? fun (a, b, d) => a + d ≤ n && n ≤ b + d with
  | some (_, _, d) => n - d
  | none =>
    match pairedCapitals.find? fun (a, b, _) => a ≤ n && n ≤ b with
    | some (_, _, odd) => if n % 2 == odd then n else n - 1
    | none => if n == 0xFF then 0x178 else if n == 0xB5 then 0x39C else if n == 0x3C2 then 0x3A3 else n

/-- A text in small letters. -/
def inSmallLetters (cs : List Char) : List Char := cs.map fun c => Char.ofNat (smallLetter c.toNat)

/-- A text in capital letters. A sharp s becomes two letters. -/
def inCapitals (cs : List Char) : List Char :=
  cs.flatMap fun c => if c == 'ß' then ['S', 'S'] else [Char.ofNat (capitalLetter c.toNat)]

end PagePreview.Text
