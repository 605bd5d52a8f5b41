import CheckAgent.Fallible
import CheckAgent.Proofs.Number.Digits
import CheckAgent.Proofs.Text.Blank
import CheckAgent.Proofs.Time.Calendar
import CheckAgent.Time.StartTime

/-!
# Start times as they are written

A `Stamp` is a start time before it is text: what the clock on the wall showed, and the zone in
which the clock stands. **Its zone** is a word of capitals, which stands for universal time, or a
sign and a time of day, east or west of it. **Its text** writes the reading with all its digits,
then a space and the zone, and may have blanks around it.

**Main result** (`reads_as_written`). Reading the text of a stamp always succeeds and gives the one
instant at which a clock in its zone shows its reading. Two texts give the same instant just if
their readings, moved back by their zones, coincide.
-/

namespace CheckAgent.StartTime

open CheckAgent.Number CheckAgent.Text

/-! ## Stamps -/

/-- A zone as it is written. -/
inductive Zone where
  | word (letters : List Char) (long : 3 ≤ letters.length)
      (capital : ∀ c ∈ letters, 'A' ≤ c ∧ c ≤ 'Z')
  | offset (west : Bool) (hours : Fin 24) (minutes : Fin 60) (colon : Bool)

namespace Zone

def text : Zone → List Char
  | .word letters _ _ => letters
  | .offset west hours minutes colon =>
    (if west then '-' else '+') ::
      (padded 2 hours ++ ((if colon then [':'] else []) ++ padded 2 minutes))

/-- The seconds that clocks in a zone are ahead of universal time. -/
def seconds : Zone → Int
  | .word .. => 0
  | .offset west hours minutes _ =>
    if west then -(hours * 3600 + minutes * 60 : Nat) else (hours * 3600 + minutes * 60 : Nat)

end Zone

def readingText (r : Reading) : List Char :=
  padded 4 r.date.year.toNat ++ '-' :: (padded 2 r.date.month ++ '-' :: (padded 2 r.date.day ++
    ' ' :: (padded 2 r.hour ++ ':' :: (padded 2 r.minute ++ ':' :: padded 2 r.second))))

/-- A start time as it is written. -/
structure Stamp where
  reading : Reading
  zone : Zone
  before : List Char
  after : List Char
  valid : reading.Valid
  years : 0 ≤ reading.date.year ∧ reading.date.year ≤ 9999
  blank : ∀ c ∈ before ++ after, isBlank c = true

namespace Stamp

/-- A stamp without the blanks around it. -/
def body (s : Stamp) : List Char := readingText s.reading ++ ' ' :: s.zone.text

def text (s : Stamp) : String := String.ofList (s.before ++ (s.body ++ s.after))

/-- The seconds from the start of 1970 to the reading of a stamp, moved back by its zone. -/
def seconds (s : Stamp) : Int := s.reading.toSeconds - s.zone.seconds

end Stamp

/-! ## The reading -/

theorem moreDigits_append {ds rest : List Char} {acc : Nat} (digits : ∀ c ∈ ds, c.isDigit = true)
    (small : Nat.ofDigitChars 10 ds acc ≤ maxField) :
    moreDigits ds.length acc (ds ++ rest) = .ok (Nat.ofDigitChars 10 ds acc, rest) := by
  induction ds generalizing acc with
  | nil => simp [moreDigits]
  | cons c ds ih =>
    rw [Nat.ofDigitChars_cons, Nat.mul_comm] at small ⊢
    have fits := Nat.le_trans (le_ofDigitChars ds _) small
    have front := digit?_of_isDigit (digits c List.mem_cons_self)
    rw [List.length_cons, List.cons_append, moreDigits, front]
    dsimp only
    rw [if_neg (Nat.not_lt.mpr fits)]
    exact ih (fun d mem => digits d (List.mem_cons_of_mem c mem)) small

theorem number_padded {w n : Nat} (rest : List Char) (pos : 0 < w) (fits : n < Nat.pow 10 w)
    (small : n ≤ maxField) : number w (padded w n ++ rest) = .ok (n, rest) := by
  obtain ⟨c, ds, written, digit⟩ := padded_eq_cons w n
  have length := length_padded pos fits
  have value := ofDigitChars_padded w n
  have digits : ∀ d ∈ ds, d.isDigit = true := fun d mem =>
    isDigit_of_mem_padded (written ▸ List.mem_cons_of_mem c mem)
  rw [written] at length value ⊢
  rw [Nat.ofDigitChars_cons, Nat.mul_zero, Nat.zero_add] at value
  have width : w - 1 = ds.length := by
    rw [List.length_cons] at length
    omega
  rw [List.cons_append, number, digit?_of_isDigit digit]
  dsimp only
  rw [width, moreDigits_append digits (value ▸ small), value]

theorem trimLeft_padded (w n : Nat) (rest : List Char) :
    trimLeft (padded w n ++ rest) = padded w n ++ rest := by
  obtain ⟨c, ds, written, digit⟩ := padded_eq_cons w n
  rw [written]
  refine trimLeft_of_head fun d mem => ?_
  cases mem
  exact isBlank_of_isDigit digit

theorem le_maxField {n : Nat} (small : n < 10000) : n ≤ maxField :=
  Nat.le_trans (Nat.le_of_lt small) (by decide)

theorem field_padded {low high n : Nat} (rest : List Char) (le : low ≤ n) (le' : n ≤ high)
    (small : high < 100) : field low high (padded 2 n ++ rest) = .ok (n, rest) := by
  have fits : n < Nat.pow 10 2 := Nat.lt_of_le_of_lt le' small
  have read := number_padded rest (by decide) fits (le_maxField (by omega))
  rw [field, trimLeft_padded, read]
  simp [bind, Except.bind, pure, Except.pure, le, le']

theorem field_blank (low high : Nat) (cs : List Char) :
    field low high (' ' :: cs) = field low high cs := by
  have blank : trimLeft (' ' :: cs) = trimLeft cs := rfl
  rw [field, field, blank]

theorem year_padded {y : Int} (rest : List Char) (low : 0 ≤ y) (high : y ≤ 9999) :
    year (padded 4 y.toNat ++ rest) = .ok (y, rest) := by
  have fits : y.toNat < 10000 := by omega
  have read := number_padded rest (by decide) (show y.toNat < Nat.pow 10 4 from fits)
    (le_maxField fits)
  have same : (y.toNat : Int) = y := Int.toNat_of_nonneg low
  have range : -(Nat.pow 2 31 : Int) ≤ y ∧ y < Nat.pow 2 31 := by
    rw [show Nat.pow 2 31 = 2147483648 from rfl]
    omega
  obtain ⟨c, ds, written, digit⟩ := padded_eq_cons 4 y.toNat
  rw [year, trimLeft_padded]
  rw [written] at read ⊢
  rw [List.cons_append] at read ⊢
  split
  · next r eq => cases eq; cases digit
  · next r eq => cases eq; cases digit
  · rw [read]
    rw [map_ok, ok_bind]
    dsimp only
    rw [same, if_pos range]
    rfl

theorem literal_cons (c : Char) (rest : List Char) : literal c (c :: rest) = .ok rest := by
  simp [literal]

theorem reading_readingText {r : Reading} (valid : r.Valid) (low : 0 ≤ r.date.year)
    (high : r.date.year ≤ 9999) : StartTime.reading (readingText r) = .ok r := by
  obtain ⟨⟨y, mo, d⟩, h, mi, s⟩ := r
  obtain ⟨⟨first, last, first', last'⟩, hour, minute, second⟩ := valid
  dsimp only at low high first last first' last' hour minute second
  have days : d ≤ 31 := Nat.le_trans last' (Date.daysInMonth_le ..)
  have seconds : field 0 60 (padded 2 s) = .ok (s, []) := by
    have read := field_padded [] (Nat.zero_le s) (show s ≤ 60 by omega) (by decide)
    rwa [List.append_nil] at read
  have fields : fields (readingText ⟨⟨y, mo, d⟩, h, mi, s⟩) = .ok ⟨⟨y, mo, d⟩, h, mi, s⟩ := by
    simp only [StartTime.fields, readingText, bind, Except.bind, year_padded _ low high,
      literal_cons, field_blank, field_padded _ first last (by decide),
      field_padded _ first' days (by decide),
      field_padded _ (Nat.zero_le h) (Nat.le_of_lt_succ hour) (by decide),
      field_padded _ (Nat.zero_le mi) (Nat.le_of_lt_succ minute) (by decide), seconds]
    rfl
  have counted : -262143 ≤ y ∧ y ≤ 262142 ∧ Date.Valid ⟨y, mo, d⟩ :=
    ⟨by omega, by omega, first, last, first', last'⟩
  rw [StartTime.reading, fields]
  exact if_pos counted

/-! ## The zone -/

theorem offsetDigits?_text {h m : Nat} (hour : h < 100) (minute : m < 100) (colon : Bool) :
    offsetDigits? (padded 2 h ++ ((if colon then [':'] else []) ++ padded 2 m)) =
      some ((h * 3600 + m * 60 : Nat) : Int) := by
  have tens : h / 10 < 10 := by omega
  have tens' : m / 10 < 10 := by omega
  have value : (h / 10 * 10 + h % 10) * 3600 + (m / 10 * 10 + m % 10) * 60 = h * 3600 + m * 60 := by
    omega
  have units (n : Nat) : n % 10 < 10 := Nat.mod_lt n (by decide)
  cases colon <;>
    simp [offsetDigits?, padded_two hour, padded_two minute, digit?_digitChar, tens, tens', units,
      value]

theorem zone?_text (z : Zone) : zone? z.text = some z.seconds := by
  cases z with
  | word letters long capital =>
    have word : isZoneWord letters = true := by
      simpa [isZoneWord, long] using capital
    simp [zone?, Zone.text, Zone.seconds, word]
  | offset west h m colon =>
    have digits := offsetDigits?_text (Nat.lt_trans h.isLt (by decide))
      (Nat.lt_trans m.isLt (by decide)) colon
    have day : ((h * 3600 + m * 60 : Nat) : Int) < 86400 := by omega
    cases west with
    | true =>
      simp [zone?, isZoneWord, offset?, Zone.text, Zone.seconds, digits]
      omega
    | false =>
      simp [zone?, isZoneWord, offset?, Zone.text, Zone.seconds, digits]
      omega

theorem Zone.text_solid (z : Zone) : ∀ c ∈ z.text, isBlank c = false := by
  intro c mem
  cases z with
  | word letters long capital => exact isBlank_of_capital (capital c mem)
  | offset west h m colon =>
    have digit (n : Nat) (inside : c ∈ padded 2 n) : isBlank c = false :=
      isBlank_of_isDigit (isDigit_of_mem_padded inside)
    simp only [Zone.text, List.mem_cons, List.mem_append] at mem
    rcases mem with sign | inside | colon | inside
    · cases west <;> rw [sign] <;> rfl
    · exact digit h inside
    · cases west <;> simp_all <;> rfl
    · exact digit m inside

theorem Zone.text_ne_nil (z : Zone) : z.text ≠ [] := by
  cases z with
  | word letters long capital =>
    rintro rfl
    exact absurd long (by decide)
  | offset west h m colon => exact List.cons_ne_nil _ _

theorem Zone.seconds_bounds (z : Zone) : -86400 < z.seconds ∧ z.seconds < 86400 := by
  cases z with
  | word letters long capital => exact ⟨by simp [seconds], by simp [seconds]⟩
  | offset west h m colon =>
    cases west <;> simp only [Zone.seconds, if_true, Bool.false_eq_true, if_false] <;> omega

/-! ## The whole text -/

/-- The body of a stamp begins with a digit and ends with its zone. -/
theorem Stamp.trim_body (s : Stamp) : trim (s.before ++ (s.body ++ s.after)) = s.body := by
  refine trim_append s.blank ?_ ?_
  · obtain ⟨c, rest, begins, digit⟩ := padded_eq_cons 4 s.reading.date.year.toNat
    intro d mem
    simp [body, readingText, begins] at mem
    exact mem ▸ isBlank_of_isDigit digit
  · rcases List.eq_nil_or_concat s.zone.text with none | ⟨front, c, ends⟩
    · exact absurd none s.zone.text_ne_nil
    · rw [List.concat_eq_append] at ends
      intro d mem
      rw [body, ends, ← List.cons_append, ← List.append_assoc, List.getLast?_concat] at mem
      cases mem
      exact s.zone.text_solid c (ends ▸ List.mem_concat_self)

theorem Stamp.seconds_bounds (s : Stamp) :
    Instant.first ≤ s.seconds ∧ s.seconds ≤ Instant.last := by
  have first : Instant.first = -8334601228800 := by decide
  have last : Instant.last = 8210266876799 := by decide
  obtain ⟨low, high⟩ := s.zone.seconds_bounds
  obtain ⟨valid, hour, minute, second⟩ := s.valid
  obtain ⟨early, late⟩ := s.years
  obtain ⟨day, day', -⟩ := valid.march
  have year : s.reading.date.year - 1 ≤ s.reading.date.marchYear ∧
      s.reading.date.marchYear ≤ s.reading.date.year := by
    unfold Date.marchYear
    split <;> omega
  have length : marchLength s.reading.date.marchYear ≤ 366 := by unfold marchLength; split <;> omega
  rw [first, last, Stamp.seconds, Reading.toSeconds, Date.toDays_eq, daysBefore]
  omega

/-- The text of a stamp is read as its instant. -/
theorem read_text (s : Stamp) : read s.text = .ok ⟨s.seconds, 0⟩ := by
  have split : splitLast? ' ' s.body = some (readingText s.reading, s.zone.text) :=
    splitLast?_append _ fun space => absurd (s.zone.text_solid ' ' space) (by decide)
  have shown := reading_readingText s.valid s.years.1 s.years.2
  have second : s.reading.second ≠ 60 := Nat.ne_of_lt s.valid.second
  have instant : instant? s.reading s.zone.seconds = some ⟨s.seconds, 0⟩ := by
    simp only [instant?, second, if_false]
    exact if_pos s.seconds_bounds
  simp only [read, Stamp.text, String.toList_ofList, s.trim_body, split, shown, zone?_text, instant]

/-- What a clock shows at an instant, some seconds ahead of universal time. -/
def shownAt (i : Instant) (ahead : Int) : Reading := .ofSeconds (i.unix + ahead)

/-- A clock in universal time began with 1970, and every clock shows the next reading one second
later. -/
theorem clock_ticks : shownAt ⟨0, 0⟩ 0 = ⟨⟨1970, 1, 1⟩, 0, 0, 0⟩ ∧
    ∀ n ahead, shownAt ⟨n + 1, 0⟩ ahead = (shownAt ⟨n, 0⟩ ahead).next := by
  refine ⟨Reading.ofSeconds_zero, fun n ahead => ?_⟩
  unfold shownAt
  rw [← Reading.ofSeconds_succ, show n + 1 + ahead = n + ahead + 1 by omega]

/-- Only one instant without leap second shows the reading of a stamp in its zone. -/
theorem shown_iff (s : Stamp) (j : Instant) :
    j = ⟨s.seconds, 0⟩ ↔ j.nanos = 0 ∧ shownAt j s.zone.seconds = s.reading := by
  obtain ⟨unix, nanos⟩ := j
  have back : s.seconds + s.zone.seconds = s.reading.toSeconds := by
    unfold Stamp.seconds
    omega
  constructor
  · rintro ⟨⟩
    refine ⟨rfl, ?_⟩
    rw [shownAt, back]
    exact Reading.ofSeconds_toSeconds s.valid
  · rintro ⟨rfl, shown⟩
    have count : unix + s.zone.seconds = s.reading.toSeconds := by
      rw [← shown, shownAt, Reading.toSeconds_ofSeconds]
    rw [show unix = s.seconds by omega]

/-- **Start times are read as they are written.** The text of a stamp gives the one instant, no leap
second, at which a clock in its zone shows its reading; clocks go by the calendar. Another stamp
gives the same instant just if the two readings, each moved back by its zone, coincide. -/
theorem reads_as_written (s : Stamp) :
    (∃ i, read s.text = .ok i ∧
      (∀ j : Instant, j = i ↔ j.nanos = 0 ∧ shownAt j s.zone.seconds = s.reading) ∧
      ∀ t : Stamp, read t.text = .ok i ↔ t.seconds = s.seconds) ∧
    shownAt ⟨0, 0⟩ 0 = ⟨⟨1970, 1, 1⟩, 0, 0, 0⟩ ∧
    ∀ n ahead, shownAt ⟨n + 1, 0⟩ ahead = (shownAt ⟨n, 0⟩ ahead).next := by
  refine ⟨⟨⟨s.seconds, 0⟩, read_text s, shown_iff s, ?_⟩, clock_ticks⟩
  intro t
  rw [read_text t, Except.ok.injEq, Instant.mk.injEq]
  exact ⟨And.left, fun same => ⟨same, rfl⟩⟩

/-- Midnight of 1 March on clocks almost a day ahead of universal time. -/
def afterLeapDay : Stamp where
  reading := ⟨⟨2024, 3, 1⟩, 0, 0, 0⟩
  zone := .offset false 23 59 true
  before := [' ']
  after := ['\n']
  valid := ⟨by decide, by decide, by decide, by decide⟩
  years := by simp
  blank := by simp [isBlank]

/-- It is read as the beginning of 29 February. -/
theorem leap_day_read : afterLeapDay.text = " 2024-03-01 00:00:00 +23:59\n" ∧
    ∃ i, read afterLeapDay.text = .ok i ∧ shownAt i 0 = ⟨⟨2024, 2, 29⟩, 0, 1, 0⟩ := by
  obtain ⟨⟨i, given, only, -⟩, -⟩ := reads_as_written afterLeapDay
  have instant : ⟨1709164860, 0⟩ = i := (only _).mpr ⟨rfl, by decide⟩
  refine ⟨by decide, i, given, ?_⟩
  rw [← instant]
  decide

end CheckAgent.StartTime
