import CheckAgent.Text.Blank

/-!
# Punycode

A host name writes a label with characters beyond ASCII as `xn--` and an ASCII form. **The ASCII
form** holds the label's own ASCII characters, a hyphen, and numbers that say which other
characters stand where: each number counts on from the one before it, and is written with digits
whose weights adapt to the size of the numbers.
-/

namespace CheckAgent.Text.Punycode

def digit? (c : Char) : Option Nat :=
  if 'a' ≤ c ∧ c ≤ 'z' then some (c.toNat - 'a'.toNat)
  else if '0' ≤ c ∧ c ≤ '9' then some (c.toNat - '0'.toNat + 26)
  else none

/-- The threshold of the digit at a position, which counts in steps of 36. -/
def threshold (position bias : Nat) : Nat := max 1 (min 26 (position - bias))

/-- The weights after a number. -/
def adapt (delta count : Nat) (first : Bool) : Nat :=
  let delta := if first then delta / 700 else delta / 2
  shrink (delta + delta / count) 0
where
  /-- Divide until the rest is small, counting in steps of 36. -/
  shrink (delta steps : Nat) : Nat :=
    if 455 < delta then shrink (delta / 35) (steps + 36) else steps + 36 * delta / (delta + 38)
  termination_by delta
  decreasing_by exact Nat.div_lt_self (by omega) (by omega)

/-- Read one number: its value added to `sum`, and the text behind it. -/
def number? (bias : Nat) (position weight sum : Nat) :
    (cs : List Char) → Option (Nat × { rest : List Char // rest.length < cs.length })
  | [] => none
  | c :: cs => do
    let d ← digit? c
    let sum := sum + d * weight
    let t := threshold position bias
    if d < t then some (sum, ⟨cs, by simp⟩)
    else
      let (total, ⟨rest, h⟩) ← number? bias (position + 36) (weight * (36 - t)) sum cs
      some (total, ⟨rest, Nat.lt_succ_of_lt h⟩)

/-- Insert the characters that numbers describe, knowing the last character and the place behind
it. -/
def insertAll (out : List Char) (code place bias : Nat) (cs : List Char) : Option (List Char) :=
  if cs.isEmpty then some out
  else
    match number? bias 36 1 place cs with
    | none => none
    | some (total, ⟨rest, _⟩) =>
      let count := out.length + 1
      let next := code + total / count
      let at_ := total % count
      if next.isValidChar then
        insertAll (out.take at_ ++ Char.ofNat next :: out.drop at_) next (at_ + 1)
          (adapt (total - place) count (place = 0)) rest
      else none
termination_by cs.length

/-- The label that an ASCII form stands for, `xn--` not being part of it. -/
def decode? (cs : List Char) : Option (List Char) :=
  match splitLast? '-' cs with
  | some (before, after) =>
    if before.isEmpty then none else insertAll before 128 0 72 after
  | none => insertAll [] 128 0 72 cs

end CheckAgent.Text.Punycode
