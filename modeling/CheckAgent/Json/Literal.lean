import CheckAgent.Json.Fault
import CheckAgent.Number.Decimal

/-!
# JSON numbers

A number literal is kept as it is written, digit by digit. **Its value** is a whole number where
it is written as one and fits 64 bits, and a binary floating-point number otherwise.

The floating-point value is computed in a fixed number of roundings: the leading digits that fit
64 bits become a mantissa, rounded, which is then multiplied or divided by a rounded power of ten.
The result may differ from the nearest value in the last place, and a magnitude beyond the format
is a fault, not an infinity.
-/

namespace CheckAgent.Json

open CheckAgent.Number

/-- A number as it is written. -/
structure Literal where
  negative : Bool
  /-- The part before the point. -/
  whole : Nat
  /-- The digits behind the point. -/
  fraction : List Nat
  exponent : Option Int
  deriving DecidableEq, Repr

/-- The value of a literal; `negative n` is the whole number below zero with magnitude `n`. -/
inductive Number where
  | natural (n : Nat)
  | negative (n : Nat)
  | real (value : Binary)
  deriving DecidableEq, Repr

def wordLimit : Nat := Nat.pow 2 64

/-- Append digits to a mantissa while it fits a word; the mantissa and the digits left over. -/
def appendDigits (mantissa : Nat) : List Nat → Nat × List Nat
  | [] => (mantissa, [])
  | d :: ds =>
    if mantissa * 10 + d < wordLimit then appendDigits (mantissa * 10 + d) ds
    else (mantissa, d :: ds)

/-- A power of ten, rounded. -/
def powerOfTen (n : Nat) : Binary := binary64.ofNat (Nat.pow 10 n)

/-- A mantissa times a power of ten. A very small power is reached by dividing repeatedly. -/
def scaleByTen (m : Binary) (e : Int) : Except Fault Binary :=
  if e.natAbs ≤ 308 then
    if 0 ≤ e then
      match m.mul binary64 (powerOfTen e.natAbs) with
      | .infinite _ => .error .numberOutOfRange
      | product => .ok product
    else .ok (m.div binary64 (powerOfTen e.natAbs))
  else if m.isZero then .ok m
  else if 0 ≤ e then .error .numberOutOfRange
  else scaleByTen (m.div binary64 (powerOfTen 308)) (e + 308)
termination_by (-e).toNat
decreasing_by omega

namespace Literal

/-- A whole number as a literal. -/
def ofNat (n : Nat) : Literal := ⟨false, n, [], none⟩

/-- A whole number with a sign as a literal. -/
def ofInt (n : Int) : Literal := ⟨n < 0, n.natAbs, [], none⟩

/-- The decimal digits of a number. -/
def digitsOf (n : Nat) : List Nat := (Nat.toDigits 10 n).map fun c => c.toNat - '0'.toNat

/-- The magnitude of a literal that is not a whole number of a word. -/
def magnitude (l : Literal) : Except Fault Binary :=
  let (m, dropped) := appendDigits 0 (digitsOf l.whole)
  let (m, unread) := appendDigits m l.fraction
  let shift : Int := dropped.length - (l.fraction.length - unread.length : Nat)
  let e := l.exponent.getD 0
  if Nat.pow 2 31 ≤ e.natAbs then
    if m ≠ 0 ∧ 0 ≤ e then .error .numberOutOfRange else .ok (binary64.zero false)
  else scaleByTen (binary64.ofNat m) (shift + e)

def value (l : Literal) : Except Fault Number :=
  if l.fraction.isEmpty ∧ l.exponent.isNone ∧ l.whole < wordLimit then
    if !l.negative then .ok (.natural l.whole)
    else if l.whole = 0 then .ok (.real (binary64.zero true))
    else if l.whole ≤ Nat.pow 2 63 then .ok (.negative l.whole)
    else .ok (.real (binary64.ofNat l.whole).neg)
  else do
    let m ← l.magnitude
    pure (.real (if l.negative then m.neg else m))

def text (l : Literal) : List Char :=
  (if l.negative then ['-'] else []) ++ Nat.toDigits 10 l.whole ++
    (if l.fraction.isEmpty then []
      else '.' :: l.fraction.map fun d => Char.ofNat (d + '0'.toNat)) ++
    match l.exponent with
    | none => []
    | some e => 'e' :: (if e < 0 then ['-'] else []) ++ Nat.toDigits 10 e.natAbs

/-- A finite binary value as the shortest literal with a point; `none` for the others. -/
def ofBinary? (f : Format) : Binary → Option Literal
  | .finite s m e =>
    let d := Decimal.shortest f m e
    let n := (digitsOf d.digits).length
    if 0 ≤ d.exponent ∧ d.exponent + n ≤ 16 then
      some ⟨s, d.digits * Nat.pow 10 d.exponent.toNat, [0], none⟩
    else if d.exponent < 0 ∧ -5 ≤ d.exponent + n then
      let places := (-d.exponent).toNat
      let fraction := digitsOf (d.digits % Nat.pow 10 places)
      some ⟨s, d.digits / Nat.pow 10 places,
        List.replicate (places - fraction.length) 0 ++ fraction, none⟩
    else
      match digitsOf d.digits with
      | [] => none
      | lead :: rest => some ⟨s, lead, rest, some (d.exponent + rest.length)⟩
  | _ => none

end Literal

end CheckAgent.Json
