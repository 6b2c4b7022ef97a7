/-!
# UTF-8

`encode` writes characters as bytes. Reading goes piece by piece: `next`
takes one character off the front or reports how many bytes there belong to
no character. On that rest two readers: `decode?` stops at the first fault
and says where it is, `decodeLossy` puts one replacement character for each
faulty piece and goes on.

A faulty piece is the longest front of some well-formed sequence, so a
truncated character counts as one piece and a stray byte as another.
-/

namespace PagePreview.Text.Utf8

/-- The bytes of a text. -/
def encode (cs : List Char) : List UInt8 := cs.flatMap String.utf8EncodeChar

/-- The number of bytes a text takes. -/
def size (cs : List Char) : Nat := cs.foldr (fun c n => c.utf8Size + n) 0

/-- What stands at the front of a list of bytes. -/
inductive Piece where
  /-- A whole character. -/
  | char (c : Char)
  /-- That many bytes that are no character. -/
  | bad (length : Nat)
  /-- The bytes end inside a character. -/
  | cut

/-- What a first byte promises: how many bytes follow it, the bounds of the first of these, and
the bits that it gives itself. -/
structure Lead where
  more : Nat
  low : UInt8
  high : UInt8
  bits : Nat

/-- Reads a byte as the first of a sequence of two to four bytes. -/
def lead? (b : UInt8) : Option Lead :=
  if b < 0xC2 then none
  else if b < 0xE0 then some ⟨1, 0x80, 0xBF, b.toNat - 0xC0⟩
  else if b == 0xE0 then some ⟨2, 0xA0, 0xBF, 0⟩
  else if b == 0xED then some ⟨2, 0x80, 0x9F, 0xD⟩
  else if b < 0xF0 then some ⟨2, 0x80, 0xBF, b.toNat - 0xE0⟩
  else if b == 0xF0 then some ⟨3, 0x90, 0xBF, 0⟩
  else if b < 0xF4 then some ⟨3, 0x80, 0xBF, b.toNat - 0xF0⟩
  else if b == 0xF4 then some ⟨3, 0x80, 0x8F, 4⟩
  else none

/-- Takes the remaining bytes of a character; `seen` bytes of it have been taken already. -/
def follow (low high : UInt8) (seen : Nat) : (more bits : Nat) → List UInt8 → Piece × List UInt8
  | 0, bits, bs => (.char (Char.ofNat bits), bs)
  | _ + 1, _, [] => (.cut, [])
  | more + 1, bits, b :: bs =>
    if low ≤ b && b ≤ high then
      follow 0x80 0xBF (seen + 1) more (bits * 64 + (b.toNat - 0x80)) bs
    else (.bad seen, b :: bs)

/-- The first piece of the bytes `b :: bs` and the bytes after it. -/
def next (b : UInt8) (bs : List UInt8) : Piece × List UInt8 :=
  if b < 0x80 then (.char (Char.ofNat b.toNat), bs)
  else match lead? b with
    | none => (.bad 1, bs)
    | some l => follow l.low l.high 1 l.more l.bits bs

theorem length_follow_le (low high : UInt8) (seen more bits : Nat) (bs : List UInt8) :
    (follow low high seen more bits bs).2.length ≤ bs.length := by
  induction bs generalizing low high seen more bits with
  | nil => cases more <;> simp [follow]
  | cons b bs ih =>
    cases more with
    | zero => simp [follow]
    | succ more =>
      simp only [follow]
      split
      · exact Nat.le_succ_of_le (ih ..)
      · simp

theorem length_next_le (b : UInt8) (bs : List UInt8) : (next b bs).2.length ≤ bs.length := by
  unfold next
  split
  · simp
  · split
    · simp
    · exact length_follow_le ..

/-- Why bytes are no text: the offset of the first fault, and the length of the faulty piece
unless the bytes end inside it. -/
structure Fault where
  offset : Nat
  length : Option Nat
deriving DecidableEq, Repr

def Fault.message (f : Fault) : String :=
  let offset := String.ofList (Nat.toDigits 10 f.offset)
  match f.length with
  | some n =>
    "invalid utf-8 sequence of " ++ String.ofList (Nat.toDigits 10 n) ++ " bytes from index " ++
      offset
  | none => "incomplete utf-8 byte sequence from index " ++ offset

/-- Reads bytes as text; `offset` bytes stand before them. -/
def decodeFrom? (offset : Nat) : List UInt8 → Except Fault (List Char)
  | [] => .ok []
  | b :: bs =>
    match h : next b bs with
    | (.char c, rest) =>
      have : rest.length ≤ bs.length := by have := length_next_le b bs; rwa [h] at this
      (decodeFrom? (offset + c.utf8Size) rest).map (c :: ·)
    | (.bad length, _) => .error ⟨offset, some length⟩
    | (.cut, _) => .error ⟨offset, none⟩
termination_by bs => bs.length
decreasing_by simp only [List.length_cons]; omega

/-- Reads bytes as text, or says where they stop being text. -/
def decode? (bs : List UInt8) : Except Fault (List Char) := decodeFrom? 0 bs

/-- Reads bytes as text with a replacement character for each piece that is none. -/
def decodeLossy : List UInt8 → List Char
  | [] => []
  | b :: bs =>
    match h : next b bs with
    | (.char c, rest) =>
      have : rest.length ≤ bs.length := by have := length_next_le b bs; rwa [h] at this
      c :: decodeLossy rest
    | (_, rest) =>
      have : rest.length ≤ bs.length := by have := length_next_le b bs; rwa [h] at this
      '\uFFFD' :: decodeLossy rest
termination_by bs => bs.length
decreasing_by all_goals (simp only [List.length_cons]; omega)

end PagePreview.Text.Utf8
