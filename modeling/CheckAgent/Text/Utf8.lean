import CheckAgent.Text.Blank

/-!
# UTF-8

Bytes from a pipe, from a path or from a service are read as UTF-8. **Decoding one character**
takes the longest well-formed start of an ill-formed sequence as one unit, so the strict and the
forgiving reader walk the same steps: the strict one stops at the first such unit, the forgiving
one puts the replacement character in its place.
-/

namespace CheckAgent.Text.Utf8

open CheckAgent.Text

/-- What a leading byte announces: the number of bytes that follow, the range of the first of
them, and the bits that the leading byte itself contributes. -/
structure Lead where
  follow : Nat
  low : Nat
  high : Nat
  bits : Nat

/-- The sequences that begin with a byte. Overlong forms, surrogates and values above `10FFFF`
are excluded by the range of the second byte. -/
def lead? (b : Nat) : Option Lead :=
  if b < 0x80 then some ⟨0, 0, 0, b⟩
  else if b < 0xC2 then none
  else if b < 0xE0 then some ⟨1, 0x80, 0xBF, b - 0xC0⟩
  else if b = 0xE0 then some ⟨2, 0xA0, 0xBF, 0⟩
  else if b = 0xED then some ⟨2, 0x80, 0x9F, 0xD⟩
  else if b < 0xF0 then some ⟨2, 0x80, 0xBF, b - 0xE0⟩
  else if b = 0xF0 then some ⟨3, 0x90, 0xBF, 0⟩
  else if b < 0xF4 then some ⟨3, 0x80, 0xBF, b - 0xF0⟩
  else if b = 0xF4 then some ⟨3, 0x80, 0x8F, 4⟩
  else none

/-- Read the bytes that follow a leading byte: the code point if all are there, and what is left
after the last byte that fits. -/
def following : Nat → Nat → Nat → Nat → Bytes → Option Nat × Bytes
  | 0, _, _, acc, rest => (some acc, rest)
  | _ + 1, _, _, _, [] => (none, [])
  | n + 1, low, high, acc, b :: rest =>
    if low ≤ b.toNat ∧ b.toNat ≤ high then following n 0x80 0xBF (acc * 64 + b.toNat % 64) rest
    else (none, b :: rest)

theorem following_length_le (n low high acc : Nat) (bs : Bytes) :
    (following n low high acc bs).2.length ≤ bs.length := by
  induction n generalizing low high acc bs with
  | zero => simp [following]
  | succ n ih =>
    cases bs with
    | nil => simp [following]
    | cons b rest =>
      unfold following
      split
      · exact Nat.le_succ_of_le (ih ..)
      · simp

/-- One character from the front of a non-empty sequence; `none` stands for an ill-formed unit. -/
def next (b : UInt8) (rest : Bytes) : Option Char × Bytes :=
  match lead? b.toNat with
  | none => (none, rest)
  | some l =>
    let r := following l.follow l.low l.high l.bits rest
    (r.1.map Char.ofNat, r.2)

theorem next_length_le (b : UInt8) (rest : Bytes) : (next b rest).2.length ≤ rest.length := by
  unfold next
  split
  · exact Nat.le_refl _
  · exact following_length_le ..

/-- The characters of a byte sequence in order, `none` for each ill-formed unit. -/
def units : Bytes → List (Option Char)
  | [] => []
  | b :: rest => (next b rest).1 :: units (next b rest).2
termination_by bs => bs.length
decreasing_by exact Nat.lt_succ_of_le (next_length_le b rest)

def decode? (bs : Bytes) : Option (List Char) := (units bs).mapM id

/-- Read any sequence, with U+FFFD for each ill-formed unit. -/
def decodeLossy (bs : Bytes) : List Char := (units bs).map fun u => u.getD '\uFFFD'

def encode (cs : List Char) : Bytes := cs.flatMap String.utf8EncodeChar

end CheckAgent.Text.Utf8
