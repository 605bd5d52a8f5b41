import CheckAgent.Text.Utf8

/-!
# Percent-decoding

A path segment may write any byte as `%` and two hexadecimal digits. **An escape that is not
complete stands for itself**, so decoding never fails by itself: only the bytes that come out may
fail to be UTF-8.
-/

namespace CheckAgent.Text

def hexDigit? (c : Char) : Option Nat :=
  if '0' ≤ c ∧ c ≤ '9' then some (c.toNat - '0'.toNat)
  else if 'a' ≤ c ∧ c ≤ 'f' then some (c.toNat - 'a'.toNat + 10)
  else if 'A' ≤ c ∧ c ≤ 'F' then some (c.toNat - 'A'.toNat + 10)
  else none

namespace Percent

/-- The bytes that a percent-encoded text stands for. -/
def decode : List Char → Bytes
  | [] => []
  | c :: rest =>
    match c, rest with
    | '%', h :: l :: tail =>
      match hexDigit? h, hexDigit? l with
      | some hi, some lo => UInt8.ofNat (hi * 16 + lo) :: decode tail
      | _, _ => String.utf8EncodeChar '%' ++ decode (h :: l :: tail)
    | c, rest => String.utf8EncodeChar c ++ decode rest
termination_by cs => cs.length

end Percent

end CheckAgent.Text
