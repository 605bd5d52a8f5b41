import CheckAgent.Number.Decimal
import CheckAgent.Time.Instant

/-!
# Decimal digits, written and read

Numbers are written by `Nat.toDigits`, with zeros in front where a field has a width (`padded`), and
read digit by digit. Both sides meet in `Nat.ofDigitChars`, the number that a text of digits stands
for: reading a run of digits gives it, and of what is written it is the number itself.
-/

namespace CheckAgent

open CheckAgent.Number

/-! ## Single digits -/

theorem digit?_eq (c : Char) :
    Unsigned.digit? c = if c.isDigit then some (c.toNat - '0'.toNat) else none := by
  simp [Unsigned.digit?, Char.isDigit, Char.le_def]

theorem digit?_of_isDigit {c : Char} (digit : c.isDigit = true) :
    Unsigned.digit? c = some (c.toNat - '0'.toNat) := by
  rw [digit?_eq, if_pos digit]

theorem digit?_of_not {c : Char} (other : c.isDigit = false) : Unsigned.digit? c = none := by
  rw [digit?_eq, other]
  rfl

/-! ## Runs of digits -/

theorem le_ofDigitChars (ds : List Char) (n : Nat) : n ≤ Nat.ofDigitChars 10 ds n := by
  induction ds generalizing n with
  | nil => simp
  | cons c ds ih =>
    rw [Nat.ofDigitChars_cons]
    exact Nat.le_trans (by omega) (ih _)

/-- The digits at the front of a text are read up to the first other character. -/
theorem spanDigits_append {ds rest : List Char} (digits : ∀ c ∈ ds, c.isDigit = true)
    (stop : ∀ c ∈ rest.head?, c.isDigit = false) :
    Decimal.spanDigits (ds ++ rest) = (ds.map fun c => c.toNat - '0'.toNat, rest) := by
  induction ds with
  | nil =>
    cases rest with
    | nil => rfl
    | cons c rest => simp [Decimal.spanDigits, digit?_of_not (stop c rfl)]
  | cons c ds ih =>
    have front := digit?_of_isDigit (digits c List.mem_cons_self)
    have tail := ih fun d mem => digits d (List.mem_cons_of_mem c mem)
    simp [Decimal.spanDigits, front, tail]

theorem ofDigits_map (ds : List Char) :
    Decimal.ofDigits (ds.map fun c => c.toNat - '0'.toNat) = Nat.ofDigitChars 10 ds 0 := by
  simp only [Decimal.ofDigits, List.foldl_map, Nat.ofDigitChars_eq_foldl, Nat.mul_comm]

/-! ## What is written -/

theorem isDigit_of_mem_toDigits {n : Nat} {c : Char} (mem : c ∈ Nat.toDigits 10 n) :
    c.isDigit = true :=
  Nat.isDigit_of_mem_toDigits (by decide) (by decide) mem

/-- A number begins with a digit. -/
theorem toDigits_eq_cons (n : Nat) : ∃ c ds, Nat.toDigits 10 n = c :: ds ∧ c.isDigit = true := by
  cases written : Nat.toDigits 10 n with
  | nil => exact absurd written Nat.toDigits_ne_nil
  | cons c ds => exact ⟨c, ds, rfl, isDigit_of_mem_toDigits (written ▸ List.mem_cons_self)⟩

theorem isDigit_of_mem_padded {w n : Nat} {c : Char} (mem : c ∈ padded w n) : c.isDigit = true := by
  rcases List.mem_append.mp mem with zero | digit
  · rw [List.eq_of_mem_replicate zero]
    rfl
  · exact isDigit_of_mem_toDigits digit

theorem length_padded {w n : Nat} (pos : 0 < w) (fits : n < Nat.pow 10 w) :
    (padded w n).length = w := by
  have := (Nat.length_toDigits_le_iff (by decide) pos).mpr fits
  simp only [padded, List.length_append, List.length_replicate]
  omega

theorem ofDigitChars_padded (w n : Nat) : Nat.ofDigitChars 10 (padded w n) 0 = n := by
  simp [padded, Nat.ofDigitChars_append, Nat.ofDigitChars_toDigits]

/-- So does a number with zeros in front. -/
theorem padded_eq_cons (w n : Nat) : ∃ c ds, padded w n = c :: ds ∧ c.isDigit = true := by
  cases written : padded w n with
  | nil => simp [padded] at written
  | cons c ds => exact ⟨c, ds, rfl, isDigit_of_mem_padded (written ▸ List.mem_cons_self)⟩

theorem digit?_digitChar {d : Nat} (small : d < 10) : Unsigned.digit? d.digitChar = some d := by
  have digit : d.digitChar.isDigit = true := by simpa using small
  rw [digit?_of_isDigit digit]
  exact congrArg some (Nat.toNat_digitChar_sub_48_of_lt_ten small)

theorem digit?_eq_some_iff {c : Char} {d : Nat} :
    Unsigned.digit? c = some d ↔ d < 10 ∧ c = d.digitChar := by
  constructor
  · intro read
    rw [digit?_eq] at read
    split at read
    · next digit =>
      have bounds : 48 ≤ c.toNat ∧ c.toNat ≤ 57 := by
        simpa [Char.isDigit, UInt32.le_iff_toNat_le] using digit
      have value : c.toNat - 48 = d := Option.some.inj read
      have small : d < 10 := by omega
      refine ⟨small, Char.toNat_inj.mp ?_⟩
      rw [Nat.toNat_digitChar_of_lt_ten small]
      omega
    · cases read
  · rintro ⟨small, rfl⟩
    exact digit?_digitChar small

theorem padded_two {n : Nat} (fits : n < 100) :
    padded 2 n = [Nat.digitChar (n / 10), Nat.digitChar (n % 10)] := by
  by_cases single : n < 10
  · have tens : n / 10 = 0 := Nat.div_eq_of_lt single
    simp [padded, Nat.toDigits_of_lt_base single, tens, Nat.mod_eq_of_lt single]
  · have tens : n / 10 < 10 := by omega
    simp [padded, Nat.toDigits_of_base_le (b := 10) (by decide) (Nat.le_of_not_lt single),
      Nat.toDigits_of_lt_base tens]

end CheckAgent
