import CheckAgent.Number.Binary
import CheckAgent.Number.Unsigned

/-!
# Decimal text of binary numbers

**Writing.** A binary value is written with the fewest decimal digits that read back as that
value, and of those with the digits nearest to it. `shortest` walks the decimal grids from coarse
to fine and tests the two grid points around the value.

**Reading.** A decimal text is read as the nearest binary value.

The place of the point and the form of the exponent are a `Style`, chosen by whoever writes.
-/

namespace CheckAgent.Number

/-- A decimal number `digits * 10 ^ exponent`. -/
structure Decimal where
  digits : Nat
  exponent : Int
  deriving DecidableEq, Repr

namespace Decimal

/-- Drop the zeros at the end of the digits. -/
def normalize (fuel : Nat) (d : Decimal) : Decimal :=
  match fuel with
  | 0 => d
  | fuel + 1 =>
    if d.digits ≠ 0 ∧ d.digits % 10 = 0 then normalize fuel ⟨d.digits / 10, d.exponent + 1⟩ else d

/-- The ratio `num / den * 10 ^ e`. -/
def scale (num den : Nat) (e : Int) : Nat × Nat :=
  if 0 ≤ e then (num * Nat.pow 10 e.toNat, den) else (num, den * Nat.pow 10 (-e).toNat)

/-- The decimal exponent of the leading digit of `num / den`, searched upwards from `e`. -/
def leading (fuel : Nat) (num den : Nat) (e : Int) : Int :=
  match fuel with
  | 0 => e
  | fuel + 1 =>
    let s := scale num den (-(e + 1))
    if s.1 < s.2 then e else leading fuel num den (e + 1)

/-- The interval of numbers that round to a mantissa, as multiples of a quarter of its last
place: the lower end, the value and the upper end. -/
def interval (f : Format) (m : Nat) (e : Int) : Nat × Nat × Nat :=
  if m = Nat.pow 2 (f.precision - 1) ∧ f.minExponent < e then (4 * m - 1, 4 * m, 4 * m + 2)
  else (4 * m - 2, 4 * m, 4 * m + 2)

/-- Whether `d * 10 ^ k` rounds to the mantissa `m` with exponent `e`. -/
def readsBack (f : Format) (m : Nat) (e : Int) (d : Nat) (k : Int) : Bool :=
  let (low, _, high) := interval f m e
  -- compare d * 10 ^ k with low * 2 ^ (e - 2), over common denominators
  let x := scale d 1 k
  let l := scaleRatio low 1 (e - 2)
  let h := scaleRatio high 1 (e - 2)
  if m % 2 = 0 then l.1 * x.2 ≤ x.1 * l.2 && x.1 * h.2 ≤ h.1 * x.2
  else l.1 * x.2 < x.1 * l.2 && x.1 * h.2 < h.1 * x.2

/-- The nearest reading-back point of the coarsest decimal grid that has one; grids are tried
from the power `k` downwards. -/
def search (f : Format) (m : Nat) (e : Int) (fuel : Nat) (k : Int) : Decimal :=
  let v := scaleRatio m 1 e
  let s := scale v.1 v.2 (-k)
  let d := s.1 / s.2
  match fuel with
  | 0 => ⟨d, k⟩
  | fuel + 1 =>
    match readsBack f m e d k, readsBack f m e (d + 1) k with
    | true, true => if 2 * (s.1 % s.2) ≤ s.2 then ⟨d, k⟩ else ⟨d + 1, k⟩
    | true, false => ⟨d, k⟩
    | false, true => ⟨d + 1, k⟩
    | false, false => search f m e fuel (k - 1)

/-- The shortest decimal that reads back as the finite value `m * 2 ^ e`. -/
def shortest (f : Format) (m : Nat) (e : Int) : Decimal :=
  if m = 0 then ⟨0, 0⟩
  else
    let r := scaleRatio m 1 e
    let k := leading 800 r.1 r.2 (-400)
    normalize 30 (search f m e 25 k)

/-! ## Text -/

/-- How a decimal is laid out. -/
structure Style where
  /-- Whether a whole number ends in `.0`. -/
  pointed : Bool
  /-- The powers of ten of the leading digit that are written without an exponent. -/
  positional : Int → Bool

/-- Settings messages: positional, whole numbers bare. -/
def plain : Style := ⟨false, fun _ => true⟩

/-- Messages on JSON numbers: positional from `1e-5` up to below `1e16`, whole numbers pointed. -/
def pointed : Style := ⟨true, fun p => -5 ≤ p && p < 16⟩

/-- At least two digits of an exponent, after its sign. -/
def exponentText (p : Int) : List Char :=
  let ds := Nat.toDigits 10 p.natAbs
  (if p < 0 then '-' else '+') :: (if ds.length < 2 then '0' :: ds else ds)

def text (style : Style) (d : Decimal) : List Char :=
  let ds := Nat.toDigits 10 d.digits
  let p : Int := d.exponent + ds.length - 1
  if d.digits = 0 ∨ style.positional p then
    if 0 ≤ d.exponent then
      ds ++ List.replicate d.exponent.toNat '0' ++ (if style.pointed then ['.', '0'] else [])
    else if 0 ≤ p then
      ds.take (p.toNat + 1) ++ '.' :: ds.drop (p.toNat + 1)
    else
      '0' :: '.' :: List.replicate (-(p + 1)).toNat '0' ++ ds
  else
    ds.take 1 ++ (if ds.length = 1 then [] else '.' :: ds.drop 1) ++ 'e' :: exponentText p

def ofBinary (f : Format) (style : Style) : Binary → String
  | .nan => "NaN"
  | .infinite s => if s then "-inf" else "inf"
  | .finite s m e =>
    String.ofList ((if s then ['-'] else []) ++ text style (shortest f m e))

/-! ## Reading -/

/-- The digits at the front of a text and the rest. -/
def spanDigits (cs : List Char) : List Nat × List Char :=
  match cs with
  | [] => ([], [])
  | c :: rest =>
    match Unsigned.digit? c with
    | some d => let r := spanDigits rest; (d :: r.1, r.2)
    | none => ([], c :: rest)

/-- The number that digits stand for. -/
def ofDigits (ds : List Nat) : Nat := ds.foldl (fun n d => n * 10 + d) 0

/-- An exponent and its sign, all of the text. -/
def readExponent? (cs : List Char) : Option Int :=
  let (negative, cs) := match cs with
    | '-' :: r => (true, r)
    | '+' :: r => (false, r)
    | r => (false, r)
  match spanDigits cs with
  | ([], _) => none
  | (ds, []) => some (if negative then -(ofDigits ds : Int) else ofDigits ds)
  | _ => none

/-- The decimal number that an unsigned text denotes. At least one digit is needed, before the
point or after it. -/
def read? (cs : List Char) : Option Decimal :=
  let (whole, rest) := spanDigits cs
  let (fraction, rest) := match rest with
    | '.' :: r => spanDigits r
    | r => ([], r)
  if whole.isEmpty && fraction.isEmpty then none
  else
    let d : Decimal := ⟨ofDigits (whole ++ fraction), -(fraction.length : Int)⟩
    match rest with
    | [] => some d
    | c :: r => if c = 'e' ∨ c = 'E' then (readExponent? r).map fun x => ⟨d.digits, d.exponent + x⟩
      else none

/-- The binary value nearest to a decimal. An exponent far outside the format is settled without
computing the power. -/
def toBinary (f : Format) (negative : Bool) (d : Decimal) : Binary :=
  let p : Int := d.exponent + (Nat.toDigits 10 d.digits).length
  if d.digits = 0 ∨ p < -400 then f.zero negative
  else if 400 < p then .infinite negative
  else let r := scale d.digits 1 d.exponent; f.round negative r.1 r.2

/-- Read a number, an infinity or `nan`, whatever the case of the words. -/
def readBinary? (f : Format) (cs : List Char) : Option Binary :=
  let (negative, cs) := match cs with
    | '-' :: r => (true, r)
    | '+' :: r => (false, r)
    | r => (false, r)
  let word := String.ofList (cs.map Char.toLower)
  if word = "inf" ∨ word = "infinity" then some (.infinite negative)
  else if word = "nan" then some .nan
  else (read? cs).map (toBinary f negative)

end Decimal

end CheckAgent.Number
