import CheckAgent.Time.Calendar

/-!
# Counting days and dating them

The calendar says which date follows a date (`Date.next`), and a clock which reading follows a
reading (`Reading.next`). Dating a count of days, and reading a count of seconds, has to keep to
these rules and to undo the counting.

**Years from March.** Both directions split a count into a year that begins in March and a day of
that year. A year from March to March is a day longer than 365 just if the February in it is, and
`daysBefore` counts the days before it. `Date.ofMarch` dates a day of such a year.

**Main results.** `Date.ofDays_toDays` and `Date.toDays_ofDays`: on the dates that the calendar has
the two directions are inverse. `Reading.ofSeconds_succ`: one second later a clock shows the next
reading, over the ends of days, months, leap years and years.
-/

namespace CheckAgent

theorem isLeapYear_iff {y : Int} :
    isLeapYear y = true ↔ y % 4 = 0 ∧ (y % 100 ≠ 0 ∨ y % 400 = 0) := by
  simp [isLeapYear]

/-! ## Years that begin in March -/

/-- The number of days between 1 March of the year 0 and 1 March of a year. -/
def daysBefore (y : Int) : Int := 365 * y + y / 4 - y / 100 + y / 400

/-- The number of days from 1 March of a year to the next 1 March. -/
def marchLength (y : Int) : Int := if isLeapYear (y + 1) then 366 else 365

theorem daysBefore_succ (y : Int) : daysBefore (y + 1) = daysBefore y + marchLength y := by
  unfold daysBefore marchLength
  by_cases leap : isLeapYear (y + 1) = true
  · rw [if_pos leap]
    rw [isLeapYear_iff] at leap
    omega
  · rw [if_neg leap]
    rw [isLeapYear_iff] at leap
    omega

theorem daysBefore_add_era (y e : Int) : daysBefore (y + e * 400) = daysBefore y + e * 146097 := by
  have fours : (y + e * 400) / 4 = y / 4 + e * 100 := by omega
  have centuries : (y + e * 400) / 100 = y / 100 + e * 4 := by omega
  have eras : (y + e * 400) / 400 = y / 400 + e := by omega
  unfold daysBefore
  omega

theorem daysBefore_add_le {y y' : Int} (lt : y < y') :
    daysBefore y + marchLength y ≤ daysBefore y' := by
  rw [← daysBefore_succ]
  unfold daysBefore
  omega

theorem year_unique {y y' k k' : Int} (low : 0 ≤ k) (high : k < marchLength y) (low' : 0 ≤ k')
    (high' : k' < marchLength y') (same : daysBefore y + k = daysBefore y' + k') :
    y = y' ∧ k = k' := by
  rcases Int.lt_trichotomy y y' with lt | rfl | lt
  · have := daysBefore_add_le lt
    omega
  · exact ⟨rfl, by omega⟩
  · have := daysBefore_add_le lt
    omega

/-- The year of an era that dating finds is the one in which the day lies. -/
theorem yearOfEra_bounds {d : Int} (low : 0 ≤ d) (high : d < 146097) :
    let y := (d - d / 1460 + d / 36524 - d / 146096) / 365
    0 ≤ y ∧ y < 400 ∧ 365 * y + y / 4 - y / 100 ≤ d ∧
      d ≤ 365 * y + y / 4 - y / 100 + 365 ∧
      (d = 365 * y + y / 4 - y / 100 + 365 → (y + 1) % 4 = 0 ∧ ((y + 1) % 100 ≠ 0 ∨ y = 399)) := by
  intro y
  -- The corrections are constant on each century of days, which is one of years.
  have century : (d / 36524 = 0 ∧ y / 100 = 0) ∨ (d / 36524 = 1 ∧ y / 100 = 1) ∨
      (d / 36524 = 2 ∧ y / 100 = 2) ∨ (d / 36524 = 3 ∧ y / 100 = 3) ∨
      (d / 36524 = 4 ∧ y / 100 = 3) := by omega
  have last : d / 146096 = 0 ∨ d / 146096 = 1 := by omega
  have fourth : y % 4 = 0 ∨ y % 4 = 1 ∨ y % 4 = 2 ∨ y % 4 = 3 := by omega
  rcases century with ⟨h, h'⟩ | ⟨h, h'⟩ | ⟨h, h'⟩ | ⟨h, h'⟩ | ⟨h, h'⟩ <;>
    refine ⟨by omega, by omega, by omega, by omega, ?_⟩ <;>
    rcases fourth with f | f | f | f <;> rcases last with l | l <;> omega

namespace Date

/-! ## Dates by the year from March -/

/-- The year from March in which a date lies. -/
def marchYear (d : Date) : Int := if d.month ≤ 2 then d.year - 1 else d.year

/-- The number of months from March to the month of a date. -/
def marchMonth (d : Date) : Int := if d.month ≤ 2 then d.month + 9 else d.month - 3

/-- The number of days from 1 March to a date. -/
def marchDay (d : Date) : Int := (153 * d.marchMonth + 2) / 5 + d.day - 1

/-- The date of a day of a year from March. -/
def ofMarch (y k : Int) : Date :=
  let m := (5 * k + 2) / 153
  let day := k - (153 * m + 2) / 5 + 1
  let month := if m < 10 then m + 3 else m - 9
  ⟨if month ≤ 2 then y + 1 else y, month.toNat, day.toNat⟩

theorem toDays_eq (d : Date) : d.toDays = daysBefore d.marchYear + d.marchDay - 719468 := by
  unfold toDays daysBefore marchYear marchDay marchMonth
  dsimp only
  omega

/-- Dating a count of days first finds the year from March, then the date in it. -/
theorem ofDays_eq (n : Int) : ∃ y k, n + 719468 = daysBefore y + k ∧ 0 ≤ k ∧ k < marchLength y ∧
    ofDays n = ofMarch y k := by
  let d := (n + 719468) % 146097
  let e := (n + 719468) / 146097
  let y := (d - d / 1460 + d / 36524 - d / 146096) / 365
  obtain ⟨nonneg, lt, le, le', leap⟩ :=
    yearOfEra_bounds (d := d) (Int.emod_nonneg _ (by decide)) (Int.emod_lt_of_pos _ (by decide))
  change 0 ≤ y at nonneg
  change y < 400 at lt
  change 365 * y + y / 4 - y / 100 ≤ d at le
  change d ≤ 365 * y + y / 4 - y / 100 + 365 at le'
  change d = 365 * y + y / 4 - y / 100 + 365 →
    (y + 1) % 4 = 0 ∧ ((y + 1) % 100 ≠ 0 ∨ y = 399) at leap
  have split : n + 719468 = 146097 * e + d := (Int.mul_ediv_add_emod _ _).symm
  refine ⟨y + e * 400, d - (365 * y + y / 4 - y / 100), ?_, by omega, ?_, ?_⟩
  · rw [daysBefore_add_era]
    unfold daysBefore
    omega
  · unfold marchLength
    by_cases long : isLeapYear (y + e * 400 + 1) = true
    · rw [if_pos long]
      omega
    · rw [if_neg long]
      rw [isLeapYear_iff] at long
      omega
  · rfl

theorem ofMarch_cases {y k : Int} (low : 0 ≤ k) (high : k < marchLength y) :
    let m := (5 * k + 2) / 153
    0 ≤ m ∧ m ≤ 11 ∧ 0 ≤ k - (153 * m + 2) / 5 := by
  have : marchLength y ≤ 366 := by unfold marchLength; split <;> omega
  omega

theorem marchYear_ofMarch {y k : Int} (low : 0 ≤ k) (high : k < marchLength y) :
    (ofMarch y k).marchYear = y := by
  obtain ⟨_, _, _⟩ := ofMarch_cases low high
  simp only [marchYear, ofMarch]
  omega

theorem marchDay_ofMarch {y k : Int} (low : 0 ≤ k) (high : k < marchLength y) :
    (ofMarch y k).marchDay = k := by
  obtain ⟨_, _, _⟩ := ofMarch_cases low high
  simp only [marchDay, marchMonth, ofMarch]
  omega

theorem ofMarch_valid {y k : Int} (low : 0 ≤ k) (high : k < marchLength y) :
    (ofMarch y k).Valid := by
  obtain ⟨_, _, _⟩ := ofMarch_cases low high
  have month : (5 * k + 2) / 153 = 0 ∨ (5 * k + 2) / 153 = 1 ∨ (5 * k + 2) / 153 = 2 ∨
      (5 * k + 2) / 153 = 3 ∨ (5 * k + 2) / 153 = 4 ∨ (5 * k + 2) / 153 = 5 ∨
      (5 * k + 2) / 153 = 6 ∨ (5 * k + 2) / 153 = 7 ∨ (5 * k + 2) / 153 = 8 ∨
      (5 * k + 2) / 153 = 9 ∨ (5 * k + 2) / 153 = 10 ∨ (5 * k + 2) / 153 = 11 := by omega
  rcases month with h | h | h | h | h | h | h | h | h | h | h | february
  iterate 11
    · simp only [Valid, ofMarch, daysInMonth, h]
      simp
      omega
  · by_cases leap : isLeapYear (y + 1) = true
    · simp only [marchLength, if_pos leap] at high
      simp [Valid, ofMarch, daysInMonth, february, leap]
      omega
    · simp only [marchLength, if_neg leap] at high
      simp [Valid, ofMarch, daysInMonth, february, leap]
      omega

/-! ## The two directions -/

theorem ofDays_valid (n : Int) : (ofDays n).Valid := by
  obtain ⟨y, k, _, low, high, eq⟩ := ofDays_eq n
  rw [eq]
  exact ofMarch_valid low high

theorem toDays_ofDays (n : Int) : (ofDays n).toDays = n := by
  obtain ⟨y, k, count, low, high, eq⟩ := ofDays_eq n
  rw [eq, toDays_eq, marchYear_ofMarch low high, marchDay_ofMarch low high]
  omega

/-- The day of a date lies in its year from March, and in its month. -/
theorem Valid.march {d : Date} (valid : d.Valid) :
    0 ≤ d.marchDay ∧ d.marchDay < marchLength d.marchYear ∧
      (5 * d.marchDay + 2) / 153 = d.marchMonth := by
  obtain ⟨y, m, day⟩ := d
  obtain ⟨low, high, first, last⟩ := valid
  dsimp only at low high first last
  have month : m = 2 ∨ m = 1 ∨ m = 3 ∨ m = 4 ∨ m = 5 ∨ m = 6 ∨ m = 7 ∨ m = 8 ∨ m = 9 ∨ m = 10 ∨
      m = 11 ∨ m = 12 := by omega
  have length (y : Int) : 365 ≤ marchLength y := by unfold marchLength; split <;> omega
  have before := length (y - 1)
  have within := length y
  rcases month with rfl | rfl | rfl | rfl | rfl | rfl | rfl | rfl | rfl | rfl | rfl | rfl
  · -- Only a February tells the lengths of years apart.
    by_cases leap : isLeapYear y = true
    · simp [daysInMonth, leap] at last
      simp [marchYear, marchMonth, marchDay, marchLength, leap]
      omega
    · simp [daysInMonth, leap] at last
      simp [marchYear, marchMonth, marchDay, marchLength, leap]
      omega
  all_goals
    simp [daysInMonth] at last
    simp [marchYear, marchMonth, marchDay]
    omega

theorem Valid.ofMarch {d : Date} (valid : d.Valid) : Date.ofMarch d.marchYear d.marchDay = d := by
  obtain ⟨_, _, month⟩ := valid.march
  obtain ⟨low, high, first, _⟩ := valid
  obtain ⟨y, m, day⟩ := d
  unfold Date.ofMarch
  rw [month]
  simp only [marchDay, marchMonth, marchYear, Date.mk.injEq] at *
  omega

theorem ofDays_toDays {d : Date} (valid : d.Valid) : ofDays d.toDays = d := by
  obtain ⟨y, k, count, low, high, eq⟩ := ofDays_eq d.toDays
  obtain ⟨low', high', _⟩ := valid.march
  rw [toDays_eq] at count
  obtain ⟨rfl, rfl⟩ := year_unique low high low' high' (by omega)
  rw [eq, valid.ofMarch]

/-! ## The day after -/

/-- The date that follows a date. -/
def next (d : Date) : Date :=
  if d.day < daysInMonth d.year d.month then ⟨d.year, d.month, d.day + 1⟩
  else if d.month < 12 then ⟨d.year, d.month + 1, 1⟩
  else ⟨d.year + 1, 1, 1⟩

theorem le_daysInMonth (y : Int) (m : Nat) : 28 ≤ daysInMonth y m := by
  unfold daysInMonth
  repeat' split
  all_goals decide

theorem daysInMonth_le (y : Int) (m : Nat) : daysInMonth y m ≤ 31 := by
  unfold daysInMonth
  repeat' split
  all_goals decide

theorem next_valid {d : Date} (valid : d.Valid) : d.next.Valid := by
  obtain ⟨low, high, first, last⟩ := valid
  unfold next
  by_cases within : d.day < daysInMonth d.year d.month
  · rw [if_pos within]
    exact ⟨low, high, Nat.succ_le_succ (Nat.zero_le _), within⟩
  · rw [if_neg within]
    by_cases month : d.month < 12
    · rw [if_pos month]
      exact ⟨Nat.succ_le_succ (Nat.zero_le _), month, Nat.le_refl 1,
        Nat.le_trans (show 1 ≤ 28 by decide) (le_daysInMonth ..)⟩
    · rw [if_neg month]
      exact ⟨Nat.le_refl 1, show 1 ≤ 12 by decide, Nat.le_refl 1, by simp [daysInMonth]⟩

/-- The date that follows is counted one higher. -/
theorem toDays_next {d : Date} (valid : d.Valid) : d.next.toDays = d.toDays + 1 := by
  obtain ⟨y, m, day⟩ := d
  obtain ⟨low, high, first, last⟩ := valid
  dsimp only at low high first last
  have succ := daysBefore_succ (y - 1)
  rw [show y - 1 + 1 = y by omega] at succ
  unfold marchLength at succ
  rw [show y - 1 + 1 = y by omega] at succ
  have month : m = 2 ∨ m = 1 ∨ m = 3 ∨ m = 4 ∨ m = 5 ∨ m = 6 ∨ m = 7 ∨ m = 8 ∨ m = 9 ∨ m = 10 ∨
      m = 11 ∨ m = 12 := by omega
  rw [toDays_eq, toDays_eq]
  unfold next
  rcases month with rfl | rfl | rfl | rfl | rfl | rfl | rfl | rfl | rfl | rfl | rfl | rfl
  · by_cases leap : isLeapYear y = true
    all_goals
      simp [daysInMonth, leap] at last succ ⊢
      split <;> simp [marchYear, marchMonth, marchDay] <;> omega
  all_goals
    simp [daysInMonth] at last ⊢
    split <;> simp [marchYear, marchMonth, marchDay] <;> omega

end Date

/-! ## Clocks -/

namespace Reading

/-- A reading that a clock can show. -/
structure Valid (r : Reading) : Prop where
  date : r.date.Valid
  hour : r.hour < 24
  minute : r.minute < 60
  second : r.second < 60

/-- The reading that follows a reading. -/
def next (r : Reading) : Reading :=
  if r.second < 59 then { r with second := r.second + 1 }
  else if r.minute < 59 then { r with minute := r.minute + 1, second := 0 }
  else if r.hour < 23 then { r with hour := r.hour + 1, minute := 0, second := 0 }
  else ⟨r.date.next, 0, 0, 0⟩

theorem ofSeconds_valid (n : Int) : (ofSeconds n).Valid where
  date := Date.ofDays_valid _
  hour := by simp only [ofSeconds]; omega
  minute := by simp only [ofSeconds]; omega
  second := by simp only [ofSeconds]; omega

theorem toSeconds_ofSeconds (n : Int) : (ofSeconds n).toSeconds = n := by
  simp only [toSeconds, ofSeconds, Date.toDays_ofDays]
  omega

theorem ofSeconds_toSeconds {r : Reading} (valid : r.Valid) : ofSeconds r.toSeconds = r := by
  obtain ⟨date, h, m, s⟩ := r
  obtain ⟨valid, hour, minute, second⟩ := valid
  dsimp only at valid hour minute second
  have days : toSeconds ⟨date, h, m, s⟩ / 86400 = date.toDays := by simp only [toSeconds]; omega
  have rest : (toSeconds ⟨date, h, m, s⟩ % 86400).toNat = h * 3600 + m * 60 + s := by
    simp only [toSeconds]
    omega
  simp only [ofSeconds, days, rest, Date.ofDays_toDays valid, Reading.mk.injEq, true_and]
  omega

theorem toSeconds_next {r : Reading} (valid : r.Valid) :
    r.next.Valid ∧ r.next.toSeconds = r.toSeconds + 1 := by
  obtain ⟨date, h, m, s⟩ := r
  obtain ⟨valid, hour, minute, second⟩ := valid
  dsimp only at valid hour minute second
  unfold next
  by_cases ends : s < 59
  · rw [if_pos ends]
    exact ⟨⟨valid, hour, minute, Nat.succ_lt_succ ends⟩, by simp only [toSeconds]; omega⟩
  rw [if_neg ends]
  by_cases ends' : m < 59
  · rw [if_pos ends']
    exact ⟨⟨valid, hour, Nat.succ_lt_succ ends', Nat.zero_lt_succ 59⟩,
      by simp only [toSeconds]; omega⟩
  rw [if_neg ends']
  by_cases ends'' : h < 23
  · rw [if_pos ends'']
    exact ⟨⟨valid, Nat.succ_lt_succ ends'', Nat.zero_lt_succ 59, Nat.zero_lt_succ 59⟩,
      by simp only [toSeconds]; omega⟩
  rw [if_neg ends'']
  refine ⟨⟨Date.next_valid valid, Nat.zero_lt_succ 23, Nat.zero_lt_succ 59,
    Nat.zero_lt_succ 59⟩, ?_⟩
  simp only [toSeconds, Date.toDays_next valid]
  omega

theorem ofSeconds_zero : ofSeconds 0 = ⟨⟨1970, 1, 1⟩, 0, 0, 0⟩ := by decide

/-- One second later a clock shows the reading that follows. -/
theorem ofSeconds_succ (n : Int) : ofSeconds (n + 1) = (ofSeconds n).next := by
  obtain ⟨valid, later⟩ := toSeconds_next (ofSeconds_valid n)
  rw [← ofSeconds_toSeconds valid, later, toSeconds_ofSeconds]

end Reading

end CheckAgent
