/-!
# Binary floating point

Backoff factors, jitter and progress are binary floating-point numbers. A value is kept as a sign,
a whole mantissa and a power of two, so that every operation is **one exact result, rounded once**
to the nearest value of its format, a tie going to the even mantissa.

A finite value of a format has a mantissa below `2 ^ precision` and an exponent of at least
`minExponent`; it is in its normal form when the exponent is the smallest one possible.
-/

namespace CheckAgent.Number

structure Format where
  /-- Bits of the mantissa. -/
  precision : Nat
  /-- Exponent of the smallest positive value. -/
  minExponent : Int
  /-- Exponent of the last mantissa bit of the largest finite value. -/
  maxExponent : Int
  /-- Bits of the stored exponent. -/
  exponentBits : Nat
  deriving DecidableEq, Repr

/-- The format of 64 bits. -/
def binary64 : Format := ⟨53, -1074, 971, 11⟩

/-- The format of 32 bits. -/
def binary32 : Format := ⟨24, -149, 104, 8⟩

/-- A floating-point value; a finite one stands for `± mantissa * 2 ^ exponent`. -/
inductive Binary where
  | finite (negative : Bool) (mantissa : Nat) (exponent : Int)
  | infinite (negative : Bool)
  | nan
  deriving DecidableEq, Repr

/-- The quotient nearest to `num / den`, a tie going to the even one. -/
def roundHalfEven (num den : Nat) : Nat :=
  let q := num / den
  let r := num % den
  if 2 * r < den then q else if den < 2 * r then q + 1 else q + q % 2

/-- The ratio `num / den * 2 ^ e` as a numerator and a denominator. -/
def scaleRatio (num den : Nat) (e : Int) : Nat × Nat :=
  if 0 ≤ e then (num * Nat.pow 2 e.toNat, den) else (num, den * Nat.pow 2 (-e).toNat)

namespace Format

/-- Zero. -/
def zero (f : Format) (negative : Bool) : Binary := .finite negative 0 f.minExponent

/-- The value nearest to `num / den`. -/
def round (f : Format) (negative : Bool) (num den : Nat) : Binary :=
  if num = 0 then f.zero negative
  else
    let low : Int := max (Int.ofNat num.log2 - Int.ofNat den.log2 - f.precision) f.minExponent
    let s := scaleRatio num den (-low)
    let e := if Nat.pow 2 f.precision ≤ s.1 / s.2 then low + 1 else low
    let s := scaleRatio num den (-e)
    let m := roundHalfEven s.1 s.2
    let (m, e) := if m = Nat.pow 2 f.precision then (Nat.pow 2 (f.precision - 1), e + 1) else (m, e)
    if f.maxExponent < e then .infinite negative else .finite negative m e

/-- The value nearest to a whole number. -/
def ofNat (f : Format) (n : Nat) : Binary := f.round false n 1

/-- The value nearest to a whole number with a sign. -/
def ofInt (f : Format) (n : Int) : Binary := f.round (n < 0) n.natAbs 1

end Format

namespace Binary

def isNegative : Binary → Bool
  | .finite s _ _ | .infinite s => s
  | .nan => false

def isNan : Binary → Bool
  | .nan => true
  | _ => false

def neg : Binary → Binary
  | .finite s m e => .finite (!s) m e
  | .infinite s => .infinite (!s)
  | .nan => .nan

/-- Equal to zero, whatever the sign. -/
def isZero : Binary → Bool
  | .finite _ m _ => m == 0
  | _ => false

/-- The magnitude of a finite value as a ratio. -/
def ratio (m : Nat) (e : Int) : Nat × Nat := scaleRatio m 1 e

/-- The same number in another format. -/
def convert (f : Format) : Binary → Binary
  | .finite s m e => let r := ratio m e; f.round s r.1 r.2
  | b => b

/-- The product, rounded once. -/
def mul (f : Format) : Binary → Binary → Binary
  | .finite s m e, .finite t n d =>
    let r := ratio (m * n) (e + d)
    f.round (s != t) r.1 r.2
  | .infinite s, .infinite t => .infinite (s != t)
  | .infinite s, .finite t n _ | .finite t n _, .infinite s =>
    if n = 0 then .nan else .infinite (s != t)
  | .nan, _ | _, .nan => .nan

/-- The quotient, rounded once. -/
def div (f : Format) : Binary → Binary → Binary
  | .finite s m e, .finite t n d =>
    if n = 0 then (if m = 0 then .nan else .infinite (s != t))
    else
      let r := scaleRatio m n (e - d)
      f.round (s != t) r.1 r.2
  | .infinite s, .finite t _ _ => .infinite (s != t)
  | .finite s _ _, .infinite t => f.zero (s != t)
  | .infinite _, .infinite _ => .nan
  | .nan, _ | _, .nan => .nan

/-- The sum, rounded once. Values of opposite signs that cancel give positive zero. -/
def add (f : Format) : Binary → Binary → Binary
  | .finite s m e, .finite t n d =>
    let low := min e d
    let x : Int := (if s then -1 else 1) * (m * Nat.pow 2 (e - low).toNat : Nat)
    let y : Int := (if t then -1 else 1) * (n * Nat.pow 2 (d - low).toNat : Nat)
    let r := ratio (x + y).natAbs low
    if x + y = 0 then f.zero (s && t) else f.round (x + y < 0) r.1 r.2
  | .infinite s, .infinite t => if s = t then .infinite s else .nan
  | .infinite s, .finite _ _ _ | .finite _ _ _, .infinite s => .infinite s
  | .nan, _ | _, .nan => .nan

/-- The order of numbers; a comparison with `nan` is false. -/
def lt : Binary → Binary → Bool
  | .finite s m e, .finite t n d =>
    let low := min e d
    let x : Int := (if s then -1 else 1) * (m * Nat.pow 2 (e - low).toNat : Nat)
    let y : Int := (if t then -1 else 1) * (n * Nat.pow 2 (d - low).toNat : Nat)
    x < y
  | .infinite s, .infinite t => s && !t
  | .infinite s, .finite _ _ _ => s
  | .finite _ _ _, .infinite t => !t
  | .nan, _ | _, .nan => false

/-- Not above; a comparison with `nan` is false. -/
def le (a b : Binary) : Bool := !a.isNan && !b.isNan && !b.lt a

/-- The smaller of two values; `nan` gives way to the other one. -/
def minNum (a b : Binary) : Binary :=
  if a.isNan then b else if b.isNan then a else if b.lt a then b else a

/-- The larger of two values; `nan` gives way to the other one. -/
def maxNum (a b : Binary) : Binary :=
  if a.isNan then b else if b.isNan then a else if a.lt b then b else a

/-- The nearest value of the interval from `low` to `high`; `nan` stays. -/
def clamp (a low high : Binary) : Binary :=
  if a.lt low then low else if high.lt a then high else a

/-- The power by repeated squaring, each product rounded. -/
def powAux (f : Format) (result base : Binary) (n : Nat) : Binary :=
  let result := if n % 2 = 1 then result.mul f base else result
  if n < 2 then result else powAux f result (base.mul f base) (n / 2)
termination_by n
decreasing_by omega

/-- The `n`-th power. -/
def pow (f : Format) (base : Binary) (n : Nat) : Binary := powAux f (f.ofNat 1) base n

/-- The stored form: the sign, the biased exponent and the mantissa without its leading bit. -/
def toBits (f : Format) : Binary → Nat
  | .finite s m e =>
    let sign := if s then Nat.pow 2 (f.precision - 1 + f.exponentBits) else 0
    let hidden := Nat.pow 2 (f.precision - 1)
    if m < hidden then sign + m
    else sign + ((e - f.minExponent).toNat + 1) * hidden + (m - hidden)
  | .infinite s =>
    (if s then Nat.pow 2 (f.precision - 1 + f.exponentBits) else 0) +
      (Nat.pow 2 f.exponentBits - 1) * Nat.pow 2 (f.precision - 1)
  | .nan =>
    (Nat.pow 2 f.exponentBits - 1) * Nat.pow 2 (f.precision - 1) + Nat.pow 2 (f.precision - 2)

end Binary

end CheckAgent.Number
