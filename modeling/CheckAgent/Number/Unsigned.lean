/-!
# Bounded whole numbers

Counts, ports and intervals are written in decimal and **must fit their range**. Reading goes
digit by digit: a character that is no digit is reported before an overflow that the number so
far would cause with one more digit, and an overflow before whatever follows it.
-/

namespace CheckAgent.Number

namespace Unsigned

/-- Why a text is no number of the range. -/
inductive Error where
  | invalidDigit
  | tooLarge
  deriving DecidableEq, Repr

def Error.message : Error → String
  | .invalidDigit => "invalid digit found in string"
  | .tooLarge => "number too large to fit in target type"

def digit? (c : Char) : Option Nat :=
  if '0' ≤ c ∧ c ≤ '9' then some (c.toNat - '0'.toNat) else none

/-- Read digits after the number `acc`, up to the largest value `max`. -/
def digits (max acc : Nat) : List Char → Except Error Nat
  | [] => .ok acc
  | c :: rest =>
    match digit? c with
    | none => .error .invalidDigit
    | some d => if max < acc * 10 + d then .error .tooLarge else digits max (acc * 10 + d) rest

/-- Read a whole number of at most `max`, with an optional plus sign. -/
def read (max : Nat) (cs : List Char) : Except Error Nat :=
  match cs with
  | '+' :: c :: rest => digits max 0 (c :: rest)
  | ['+'] | [] => .error .invalidDigit
  | cs => digits max 0 cs

end Unsigned

/-- The largest value of `n` bits. -/
def maxOfBits (n : Nat) : Nat := Nat.pow 2 n - 1

end CheckAgent.Number
