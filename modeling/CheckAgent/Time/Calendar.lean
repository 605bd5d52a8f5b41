/-!
# The civil calendar

Dates of the Gregorian calendar, extended to all years before and after its use. **Days are
counted** from 1 January 1970. Both directions count a year from 1 March, so that the leap day is
the last day of the year and a month's first day has a closed form.
-/

namespace CheckAgent

/-- A date of the civil calendar. -/
structure Date where
  year : Int
  month : Nat
  day : Nat
  deriving DecidableEq, Repr

/-- A date and a time of day. -/
structure Reading where
  date : Date
  hour : Nat
  minute : Nat
  second : Nat
  deriving DecidableEq, Repr

def isLeapYear (y : Int) : Bool := y % 4 == 0 && (y % 100 != 0 || y % 400 == 0)

def daysInMonth (y : Int) (m : Nat) : Nat :=
  if m = 2 then (if isLeapYear y then 29 else 28)
  else if m = 4 ∨ m = 6 ∨ m = 9 ∨ m = 11 then 30
  else 31

namespace Date

/-- A date that the calendar has. -/
def Valid (d : Date) : Prop :=
  1 ≤ d.month ∧ d.month ≤ 12 ∧ 1 ≤ d.day ∧ d.day ≤ daysInMonth d.year d.month

instance (d : Date) : Decidable d.Valid := inferInstanceAs (Decidable (_ ∧ _))

/-- The number of days from 1 January 1970 to a date. -/
def toDays (d : Date) : Int :=
  let y := if d.month ≤ 2 then d.year - 1 else d.year
  let era := y / 400
  let yearOfEra := y % 400
  let m : Int := if d.month ≤ 2 then d.month + 9 else d.month - 3
  let dayOfYear := (153 * m + 2) / 5 + d.day - 1
  let dayOfEra := yearOfEra * 365 + yearOfEra / 4 - yearOfEra / 100 + dayOfYear
  era * 146097 + dayOfEra - 719468

/-- The date that lies a number of days after 1 January 1970. -/
def ofDays (n : Int) : Date :=
  let z := n + 719468
  let era := z / 146097
  let dayOfEra := z % 146097
  let yearOfEra := (dayOfEra - dayOfEra / 1460 + dayOfEra / 36524 - dayOfEra / 146096) / 365
  let dayOfYear := dayOfEra - (365 * yearOfEra + yearOfEra / 4 - yearOfEra / 100)
  let m := (5 * dayOfYear + 2) / 153
  let day := dayOfYear - (153 * m + 2) / 5 + 1
  let month := if m < 10 then m + 3 else m - 9
  let y := yearOfEra + era * 400
  ⟨if month ≤ 2 then y + 1 else y, month.toNat, day.toNat⟩

end Date

namespace Reading

/-- The number of seconds from the start of 1970 to a reading of a clock without offset. -/
def toSeconds (r : Reading) : Int :=
  r.date.toDays * 86400 + r.hour * 3600 + r.minute * 60 + r.second

/-- What a clock without offset shows a number of seconds after the start of 1970. -/
def ofSeconds (n : Int) : Reading :=
  let s := (n % 86400).toNat
  ⟨Date.ofDays (n / 86400), s / 3600, s / 60 % 60, s % 60⟩

end Reading

end CheckAgent
