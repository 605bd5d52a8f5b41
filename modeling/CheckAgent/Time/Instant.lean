import CheckAgent.Time.Calendar

/-!
# Instants

An instant counts seconds from the start of 1970 in universal time, and nanoseconds. **A leap
second** shares its count of seconds with the second before it and has a thousand million
nanoseconds or more.

**The text** of an instant is the one of the internet date format, in universal time, with as
many groups of three decimals as the nanoseconds need. A year of more than four digits, or before
the year 0, carries its sign.
-/

namespace CheckAgent

/-- A point in time. -/
structure Instant where
  unix : Int
  nanos : Nat
  deriving DecidableEq, Repr

/-- A number with at least `width` digits. -/
def padded (width n : Nat) : List Char :=
  let ds := Nat.toDigits 10 n
  List.replicate (width - ds.length) '0' ++ ds

namespace Instant

/-- The first and the last second that can be dated. -/
def first : Int := (Date.mk (-262143) 1 1).toDays * 86400
def last : Int := (Date.mk 262142 12 31).toDays * 86400 + 86399

def yearText (y : Int) : List Char :=
  if 0 ≤ y ∧ y ≤ 9999 then padded 4 y.toNat
  else (if y < 0 then '-' else '+') :: padded 4 y.natAbs

def fractionText (nanos : Nat) : List Char :=
  if nanos = 0 then []
  else if nanos % 1000000 = 0 then '.' :: padded 3 (nanos / 1000000)
  else if nanos % 1000 = 0 then '.' :: padded 6 (nanos / 1000)
  else '.' :: padded 9 nanos

def text (i : Instant) : String :=
  let r := Reading.ofSeconds i.unix
  String.ofList <|
    yearText r.date.year ++ '-' :: padded 2 r.date.month ++ '-' :: padded 2 r.date.day ++
    'T' :: padded 2 r.hour ++ ':' :: padded 2 r.minute ++
    ':' :: padded 2 (r.second + i.nanos / 1000000000) ++
    fractionText (i.nanos % 1000000000) ++ ['Z']

end Instant

end CheckAgent
