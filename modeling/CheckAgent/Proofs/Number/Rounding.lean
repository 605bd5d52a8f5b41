import CheckAgent.Number.Decimal
import Mathlib.Algebra.Order.Field.Power
import Mathlib.Algebra.Order.Floor.Semifield
import Mathlib.Data.Rat.Floor
import Mathlib.Tactic.FieldSimp
import Mathlib.Tactic.Linarith
import Mathlib.Tactic.NormNum
import Mathlib.Tactic.Positivity
import Mathlib.Tactic.Ring

/-!
# What rounding does

A magnitude is rounded to a format in two steps. **The exponent of its last bit** is the least one
of the format at which it needs no more bits than there are (`Format.Places`), and **the mantissa**
is the whole number nearest to what remains (`Nearest`). Both are unique, so a rounded value is
known as soon as an exponent and a mantissa with these properties are (`round_eq_finish`).

Three uses of it: a number in the interval around a value is rounded to the value
(`round_eq_finite`), the error is at most half a unit of the last bit (`exists_stands_round`), and a
number that the format can hold is not changed (`stands_round`). Everything is said in rational
numbers, where a value `Stands` for its magnitude.
-/

namespace CheckAgent.Number

/-! ## Ratios -/

theorem scaleRatio_pos (num : Nat) {den : Nat} (pos : 0 < den) (e : Int) :
    0 < (scaleRatio num den e).2 := by
  unfold scaleRatio
  split
  · exact pos
  · exact Nat.mul_pos pos (Nat.pow_pos (by decide))

theorem div_scaleRatio (num den : Nat) (e : Int) :
    ((scaleRatio num den e).1 : ℚ) / (scaleRatio num den e).2 = num / den * 2 ^ e := by
  unfold scaleRatio
  split
  · next up =>
    obtain ⟨n, rfl⟩ := Int.eq_ofNat_of_zero_le up
    simp [mul_div_right_comm]
  · next down =>
    obtain ⟨n, rfl⟩ : ∃ n : Nat, e = -n := ⟨(-e).toNat, by omega⟩
    simp [div_eq_mul_inv]
    ring

theorem scale_pos (num : Nat) {den : Nat} (pos : 0 < den) (e : Int) :
    0 < (Decimal.scale num den e).2 := by
  unfold Decimal.scale
  split
  · exact pos
  · exact Nat.mul_pos pos (Nat.pow_pos (by decide))

theorem div_scale (num den : Nat) (e : Int) :
    ((Decimal.scale num den e).1 : ℚ) / (Decimal.scale num den e).2 = num / den * 10 ^ e := by
  unfold Decimal.scale
  split
  · next up =>
    obtain ⟨n, rfl⟩ := Int.eq_ofNat_of_zero_le up
    simp [mul_div_right_comm]
  · next down =>
    obtain ⟨n, rfl⟩ : ∃ n : Nat, e = -n := ⟨(-e).toNat, by omega⟩
    simp [div_eq_mul_inv]
    ring

theorem ratio_pos (m : Nat) (e : Int) : 0 < (Binary.ratio m e).2 := scaleRatio_pos m one_pos e

theorem div_ratio (m : Nat) (e : Int) :
    ((Binary.ratio m e).1 : ℚ) / (Binary.ratio m e).2 = m * 2 ^ e := by
  rw [Binary.ratio, div_scaleRatio, Nat.cast_one, div_one]

/-! ## Nearest whole numbers -/

/-- A whole number is the nearest one, and of two nearest ones the even one. -/
structure Nearest (x : ℚ) (m : Nat) : Prop where
  near : |x - m| ≤ 1 / 2
  even : |x - m| = 1 / 2 → m % 2 = 0

theorem Nearest.not_lt {x : ℚ} {m n : Nat} (h : Nearest x m) (h' : Nearest x n) : ¬ m < n := by
  intro lt
  have apart : (m : ℚ) + 1 ≤ n := by exact_mod_cast lt
  have above := (abs_le.mp h.near).2
  have below := (abs_le.mp h'.near).1
  have tie : x = m + 1 / 2 := by linarith
  have next : n = m + 1 := by
    have : (n : ℚ) = m + 1 := by linarith
    exact_mod_cast this
  have even := h.even (by rw [tie]; norm_num)
  have even' := h'.even (by rw [tie, next]; push_cast; norm_num [abs_of_neg])
  omega

theorem Nearest.unique {x : ℚ} {m n : Nat} (h : Nearest x m) (h' : Nearest x n) : m = n :=
  Nat.le_antisymm (Nat.le_of_not_lt (h'.not_lt h)) (Nat.le_of_not_lt (h.not_lt h'))

theorem nearest_iff {x : ℚ} {m : Nat} : Nearest x m ↔
    if m % 2 = 0 then (m : ℚ) - 1 / 2 ≤ x ∧ x ≤ m + 1 / 2
    else (m : ℚ) - 1 / 2 < x ∧ x < m + 1 / 2 := by
  split
  · next even =>
    constructor
    · rintro ⟨near, -⟩
      obtain ⟨below, above⟩ := abs_le.mp near
      constructor <;> linarith
    · rintro ⟨below, above⟩
      exact ⟨abs_le.mpr ⟨by linarith, by linarith⟩, fun _ => even⟩
  · next odd =>
    constructor
    · rintro ⟨near, even⟩
      obtain ⟨below, above⟩ := abs_lt.mp (near.lt_of_ne (mt even odd))
      constructor <;> linarith
    · rintro ⟨below, above⟩
      have near : |x - m| < 1 / 2 := abs_lt.mpr ⟨by linarith, by linarith⟩
      exact ⟨near.le, fun tie => absurd tie near.ne⟩

/-- A ratio as a whole number and a rest. -/
theorem div_eq_add_mod (num : Nat) {den : Nat} (pos : 0 < den) :
    (num : ℚ) / den = (num / den : Nat) + (num % den : Nat) / den := by
  have posQ : (0 : ℚ) < den := by exact_mod_cast pos
  have whole : (den : ℚ) * (num / den : Nat) + (num % den : Nat) = num := by
    exact_mod_cast Nat.div_add_mod num den
  rw [← whole, add_div, mul_div_cancel_left₀ _ posQ.ne']

theorem mod_div_lt_one (num : Nat) {den : Nat} (pos : 0 < den) :
    ((num % den : Nat) : ℚ) / den < 1 := by
  rw [div_lt_one (by exact_mod_cast pos)]
  exact_mod_cast Nat.mod_lt num pos

theorem mod_div_le_half_iff (num : Nat) {den : Nat} (pos : 0 < den) :
    ((num % den : Nat) : ℚ) / den ≤ 1 / 2 ↔ 2 * (num % den) ≤ den := by
  rw [div_le_div_iff₀ (by exact_mod_cast pos) two_pos, one_mul, mul_comm]
  exact_mod_cast Iff.rfl

theorem half_le_mod_div_iff (num : Nat) {den : Nat} (pos : 0 < den) :
    (1 / 2 : ℚ) ≤ ((num % den : Nat) : ℚ) / den ↔ den ≤ 2 * (num % den) := by
  rw [div_le_div_iff₀ two_pos (by exact_mod_cast pos), one_mul, mul_comm]
  exact_mod_cast Iff.rfl

theorem nearest_roundHalfEven (num : Nat) {den : Nat} (pos : 0 < den) :
    Nearest (num / den) (roundHalfEven num den) := by
  have small := mod_div_lt_one num pos
  have nonneg : (0 : ℚ) ≤ ((num % den : Nat) : ℚ) / den := by positivity
  have le_half := mod_div_le_half_iff num pos
  have half_le := half_le_mod_div_iff num pos
  rw [div_eq_add_mod num pos]
  generalize ((num % den : Nat) : ℚ) / den = t at *
  unfold roundHalfEven
  dsimp only
  split
  · next down =>
    have lt : t < 1 / 2 := not_le.mp (mt half_le.mp (not_le.mpr down))
    constructor
    · rw [add_sub_cancel_left, abs_of_nonneg nonneg]
      exact lt.le
    · rw [add_sub_cancel_left, abs_of_nonneg nonneg]
      intro tie
      linarith
  · next not_down =>
    have ge := half_le.mpr (not_lt.mp not_down)
    split
    · next up =>
      have gt : 1 / 2 < t := not_le.mp (mt le_half.mp (not_le.mpr up))
      constructor
      · push_cast
        rw [abs_le]
        constructor <;> linarith
      · push_cast
        rw [abs_of_neg (by linarith)]
        intro tie
        linarith
    · next not_up =>
      have tie : t = 1 / 2 := le_antisymm (le_half.mpr (not_lt.mp not_up)) ge
      rcases Nat.mod_two_eq_zero_or_one (num / den) with even | odd
      · rw [even, tie]
        constructor
        · simp
        · intro; omega
      · rw [odd, tie]
        constructor
        · push_cast
          rw [abs_le]
          constructor <;> linarith
        · intro; omega

/-! ## Exponents -/

theorem two_zpow_pos (e : Int) : (0 : ℚ) < 2 ^ e := zpow_pos two_pos e

theorem log2_bounds {n : Nat} (some_bit : n ≠ 0) :
    (2 : ℚ) ^ n.log2 ≤ n ∧ (n : ℚ) < 2 ^ (n.log2 + 1) := by
  constructor
  · exact_mod_cast Nat.log2_self_le some_bit
  · exact_mod_cast Nat.lt_log2_self

section

variable {x : ℚ} {m : Nat} {e : Int}

theorem sub_mul_zpow_eq (x : ℚ) (m : Nat) (e : Int) : x - m * 2 ^ e = (x / 2 ^ e - m) * 2 ^ e := by
  rw [sub_mul, div_mul_cancel₀ _ (two_zpow_pos e).ne']

/-- The nearest mantissa is at most half a unit of the last bit away. -/
theorem Nearest.abs_sub_le (nearest : Nearest (x / 2 ^ e) m) :
    |x - m * 2 ^ e| ≤ 1 / 2 * 2 ^ e := by
  rw [sub_mul_zpow_eq, abs_mul, abs_of_pos (two_zpow_pos e)]
  exact mul_le_mul_of_nonneg_right nearest.near (two_zpow_pos e).le

theorem nearest_of_lt (near : |x - m * 2 ^ e| < 1 / 2 * 2 ^ e) : Nearest (x / 2 ^ e) m := by
  rw [sub_mul_zpow_eq, abs_mul, abs_of_pos (two_zpow_pos e)] at near
  have lt := lt_of_mul_lt_mul_right near (two_zpow_pos e).le
  exact ⟨lt.le, fun tie => absurd tie lt.ne⟩

end

namespace Format

/-- A magnitude needs no more bits than a format has if the last one is at the exponent `e`, and `e`
is the least such exponent of the format. -/
structure Places (f : Format) (q : ℚ) (e : Int) : Prop where
  low : f.minExponent ≤ e
  fits : q < 2 ^ f.precision * 2 ^ e
  least : e = f.minExponent ∨ 2 ^ f.precision * 2 ^ e ≤ 2 * q

variable {f : Format} {q : ℚ} {e e' : Int}

theorem Places.not_lt (h : f.Places q e) (h' : f.Places q e') : ¬ e < e' := by
  intro lt
  have full := h'.least.resolve_left (by have := h.low; omega)
  have double : (2 : ℚ) * 2 ^ e ≤ 2 ^ e' := by
    rw [← zpow_one_add₀ two_ne_zero]
    exact zpow_le_zpow_right₀ one_le_two (by omega)
  have fits := h.fits
  have pos : (0 : ℚ) < 2 ^ f.precision := by positivity
  nlinarith [mul_le_mul_of_nonneg_left double pos.le]

theorem Places.unique (h : f.Places q e) (h' : f.Places q e') : e = e' :=
  Int.le_antisymm (Int.not_lt.mp (h'.not_lt h)) (Int.not_lt.mp (h.not_lt h'))

/-- The value with a rounded mantissa. One that is rounded up to a power of two has its last bit one
place higher. -/
def finish (f : Format) (negative : Bool) (m : Nat) (e : Int) : Binary :=
  let c := if m = 2 ^ f.precision then (2 ^ (f.precision - 1), e + 1) else (m, e)
  if f.maxExponent < c.2 then .infinite negative else .finite negative c.1 c.2

/-- A lower bound of the exponent of the last bit, by the bits of numerator and denominator. -/
def narrow (f : Format) (num den : Nat) : Int :=
  Int.ofNat num.log2 - Int.ofNat den.log2 - f.precision

/-- The exponent of the last bit of a rounded ratio. -/
def lastBit (f : Format) (num den : Nat) : Int :=
  let low := max (f.narrow num den) f.minExponent
  let s := scaleRatio num den (-low)
  if Nat.pow 2 f.precision ≤ s.1 / s.2 then low + 1 else low

variable {num den : Nat}

/-- The leading bit of a ratio is at the difference of the leading bits, or one place lower. -/
theorem narrow_bounds (f : Format) (some_bit : num ≠ 0) (pos : 0 < den) :
    2 ^ f.precision * 2 ^ f.narrow num den ≤ 2 * ((num : ℚ) / den) ∧
      (num : ℚ) / den < 2 ^ f.precision * 2 ^ (f.narrow num den + 1) := by
  have posQ : (0 : ℚ) < den := by exact_mod_cast pos
  obtain ⟨num_ge, num_lt⟩ := log2_bounds some_bit
  obtain ⟨den_ge, den_lt⟩ := log2_bounds pos.ne'
  have narrow : f.narrow num den = (num.log2 : Int) - den.log2 - f.precision := rfl
  constructor
  · rw [← mul_div_assoc, le_div_iff₀ posQ, ← zpow_natCast, ← zpow_add₀ two_ne_zero]
    calc (2 : ℚ) ^ ((f.precision : Int) + f.narrow num den) * den
        ≤ 2 ^ ((f.precision : Int) + f.narrow num den) * 2 ^ (den.log2 + 1) :=
          mul_le_mul_of_nonneg_left den_lt.le (two_zpow_pos _).le
      _ = 2 * 2 ^ num.log2 := by
        rw [← zpow_natCast, ← zpow_natCast, ← zpow_add₀ two_ne_zero, ← zpow_one_add₀ two_ne_zero]
        congr 1
        push_cast
        omega
      _ ≤ 2 * num := by linarith
  · rw [div_lt_iff₀ posQ, ← zpow_natCast, ← zpow_add₀ two_ne_zero]
    calc (num : ℚ) < 2 ^ (num.log2 + 1) := num_lt
      _ = 2 ^ ((f.precision : Int) + (f.narrow num den + 1)) * 2 ^ den.log2 := by
        rw [← zpow_natCast, ← zpow_natCast, ← zpow_add₀ two_ne_zero]
        congr 1
        push_cast
        omega
      _ ≤ _ := mul_le_mul_of_nonneg_left den_ge (two_zpow_pos _).le

theorem le_div_scaleRatio_iff (f : Format) (num : Nat) (pos : 0 < den) (e : Int) :
    Nat.pow 2 f.precision ≤ (scaleRatio num den (-e)).1 / (scaleRatio num den (-e)).2 ↔
      2 ^ f.precision * 2 ^ e ≤ (num : ℚ) / den := by
  rw [Nat.le_div_iff_mul_le (scaleRatio_pos _ pos _), ← Nat.cast_le (α := ℚ), Nat.cast_mul,
    ← le_div_iff₀ (by exact_mod_cast scaleRatio_pos _ pos _), div_scaleRatio, zpow_neg,
    ← div_eq_mul_inv, le_div_iff₀ (two_zpow_pos _)]
  simp [Nat.pow_eq]

theorem places_lastBit (f : Format) (some_bit : num ≠ 0) (pos : 0 < den) :
    f.Places (num / den) (f.lastBit num den) := by
  obtain ⟨ge, lt⟩ := narrow_bounds f some_bit pos
  unfold lastBit
  simp only [le_div_scaleRatio_iff f num pos]
  generalize f.narrow num den = narrow at ge lt
  split
  · next full =>
    refine ⟨by omega, lt.trans_le ?_, .inr ?_⟩
    · gcongr
      · exact one_le_two
      · omega
    · rw [zpow_add_one₀ two_ne_zero]
      linarith
  · next room =>
    refine ⟨by omega, not_le.mp room, ?_⟩
    rcases le_or_gt narrow f.minExponent with short | long
    · exact .inl (max_eq_right short)
    · exact .inr (by rwa [max_eq_left long.le])

theorem round_eq (f : Format) (negative : Bool) (some_bit : num ≠ 0) :
    f.round negative num den =
      f.finish negative (roundHalfEven (scaleRatio num den (-f.lastBit num den)).1
        (scaleRatio num den (-f.lastBit num den)).2) (f.lastBit num den) := by
  rw [round, if_neg some_bit]
  rfl

/-- Rounding does not look at the sign. -/
theorem round_not (f : Format) (negative : Bool) (num den : Nat) :
    f.round (!negative) num den = (f.round negative num den).neg := by
  by_cases some_bit : num = 0
  · rw [round, round, if_pos some_bit, if_pos some_bit]
    rfl
  · rw [round_eq f _ some_bit, round_eq f _ some_bit, finish, finish, apply_ite Binary.neg]
    rfl

/-- **What rounding does.** The exponent of the last bit is the one that the ratio has in the
format, and the mantissa is the nearest one. -/
theorem exists_round (f : Format) (negative : Bool) (some_bit : num ≠ 0) (pos : 0 < den) :
    ∃ e m, f.Places (num / den) e ∧ Nearest (num / den / 2 ^ e) m ∧
      f.round negative num den = f.finish negative m e := by
  have nearest := nearest_roundHalfEven (scaleRatio num den (-f.lastBit num den)).1
    (scaleRatio_pos num pos (-f.lastBit num den))
  rw [div_scaleRatio, zpow_neg, ← div_eq_mul_inv] at nearest
  exact ⟨_, _, places_lastBit f some_bit pos, nearest, round_eq f negative some_bit⟩

/-- So exponent and mantissa can be given. -/
theorem round_eq_finish (negative : Bool) {q : ℚ} {m : Nat} (pos : 0 < den)
    (ratio : (num : ℚ) / den = q)
    (some_bit : q ≠ 0) (places : f.Places q e) (nearest : Nearest (q / 2 ^ e) m) :
    f.round negative num den = f.finish negative m e := by
  subst ratio
  have some_bit : num ≠ 0 := by
    rintro rfl
    simp at some_bit
  obtain ⟨e', m', places', nearest', rounds⟩ := exists_round f negative some_bit pos
  obtain rfl := places.unique places'
  obtain rfl := nearest.unique nearest'
  exact rounds

/-! ### Mantissas -/

variable {m : Nat}

theorem Places.nearest_le (places : f.Places q e) (nearest : Nearest (q / 2 ^ e) m) :
    m ≤ 2 ^ f.precision := by
  have below : q / 2 ^ e < 2 ^ f.precision := (div_lt_iff₀ (two_zpow_pos e)).mpr places.fits
  have near := (abs_le.mp nearest.near).1
  have lt : (m : ℚ) < (2 ^ f.precision : Nat) + 1 := by push_cast; linarith
  exact Nat.lt_succ_iff.mp (by exact_mod_cast lt)

theorem finish_of_lt (negative : Bool) (fits : m < 2 ^ f.precision) (high : e ≤ f.maxExponent) :
    f.finish negative m e = .finite negative m e := by
  simp only [finish, if_neg fits.ne, if_neg (not_lt.mpr high)]

theorem finish_of_eq (negative : Bool) (full : m = 2 ^ f.precision) (high : e < f.maxExponent) :
    f.finish negative m e = .finite negative (2 ^ (f.precision - 1)) (e + 1) := by
  simp only [finish, if_pos full, if_neg (not_lt.mpr (Int.add_one_le_of_lt high))]

/-- A finite value of a format: a mantissa with few enough bits, which has a leading one unless the
exponent is the smallest one. -/
structure Canonical (f : Format) (m : Nat) (e : Int) : Prop where
  fits : m < 2 ^ f.precision
  low : f.minExponent ≤ e
  high : e ≤ f.maxExponent
  normal : e = f.minExponent ∨ 2 ^ f.precision ≤ 2 * m

/-- A value whose mantissa is no power of two is the middle of the interval of the numbers that are
rounded to it. -/
theorem round_eq_finite (negative : Bool) (pos : 0 < den) (ratio : (num : ℚ) / den = q)
    (canonical : f.Canonical m e) (some_bit : m ≠ 0)
    (inside : e = f.minExponent ∨ 2 ^ f.precision ≠ 2 * m) (nearest : Nearest (q / 2 ^ e) m) :
    f.round negative num den = .finite negative m e := by
  have unit := two_zpow_pos e
  obtain ⟨below, above⟩ := abs_le.mp nearest.abs_sub_le
  have at_least : ((m : ℚ) - 1 / 2) * 2 ^ e ≤ q := by linarith
  have at_most : q ≤ ((m : ℚ) + 1 / 2) * 2 ^ e := by linarith
  have fits : (m : ℚ) + 1 ≤ 2 ^ f.precision := by exact_mod_cast canonical.fits
  have one_le : (1 : ℚ) ≤ m := by exact_mod_cast Nat.one_le_iff_ne_zero.mpr some_bit
  have places : f.Places q e := by
    refine ⟨canonical.low, at_most.trans_lt ?_, ?_⟩
    · exact mul_lt_mul_of_pos_right (by linarith) unit
    · rcases canonical.normal with least | normal
      · exact .inl least
      · refine inside.imp_right fun inside => ?_
        have past : 2 ^ f.precision + 1 ≤ 2 * m := by omega
        have past : (2 : ℚ) ^ f.precision + 1 ≤ 2 * m := by exact_mod_cast past
        calc (2 : ℚ) ^ f.precision * 2 ^ e ≤ (2 * m - 1) * 2 ^ e :=
              mul_le_mul_of_nonneg_right (by linarith) unit.le
          _ = 2 * ((m - 1 / 2) * 2 ^ e) := by ring
          _ ≤ 2 * q := by linarith
  have positive : 0 < q := by
    have : (0 : ℚ) < (m - 1 / 2) * 2 ^ e := mul_pos (by linarith) unit
    linarith
  rw [round_eq_finish negative pos ratio positive.ne' places nearest,
    finish_of_lt negative canonical.fits canonical.high]

/-- What is rounded to a finite value is a value of the format. -/
theorem canonical_of_round (bits : 0 < f.precision) (range : f.minExponent ≤ f.maxExponent)
    {negative s : Bool} (pos : 0 < den) (rounds : f.round negative num den = .finite s m e) :
    f.Canonical m e ∧ s = negative := by
  have full : 2 * 2 ^ (f.precision - 1) = 2 ^ f.precision := mul_pow_sub_one bits.ne' 2
  have half_pos := Nat.two_pow_pos (f.precision - 1)
  by_cases some_bit : num ≠ 0
  · obtain ⟨e', m', places, nearest, finishes⟩ := exists_round f negative some_bit pos
    rw [rounds] at finishes
    have le := places.nearest_le nearest
    by_cases carry : m' = 2 ^ f.precision
    · simp only [finish, if_pos carry] at finishes
      split at finishes <;> cases finishes
      next high => exact ⟨⟨by omega, by have := places.low; omega, by omega, .inr (by omega)⟩, rfl⟩
    · simp only [finish, if_neg carry] at finishes
      split at finishes <;> cases finishes
      next high =>
      refine ⟨⟨by omega, places.low, by omega, places.least.imp_right fun normal => ?_⟩, rfl⟩
      -- the nearest whole number is at least each whole number that the ratio is at least
      have half : (2 ^ (f.precision - 1) : ℚ) ≤ num / den / 2 ^ e := by
        rw [le_div_iff₀ (two_zpow_pos _)]
        have : (2 : ℚ) * 2 ^ (f.precision - 1) = 2 ^ f.precision := by exact_mod_cast full
        rw [← this] at normal
        linarith
      have near := (abs_le.mp nearest.near).2
      have lt : ((2 ^ (f.precision - 1) : Nat) : ℚ) < m + 1 := by push_cast; linarith
      have le : 2 ^ (f.precision - 1) ≤ m := Nat.lt_succ_iff.mp (by exact_mod_cast lt)
      omega
  · rw [not_not] at some_bit
    rw [round, if_pos some_bit, zero] at rounds
    cases rounds
    exact ⟨⟨by positivity, le_rfl, range, .inl rfl⟩, rfl⟩

end Format

/-! ## Magnitudes -/

/-- A value is finite, with a sign and a magnitude. -/
def Binary.Stands (b : Binary) (negative : Bool) (x : ℚ) : Prop :=
  ∃ m e, b = .finite negative m e ∧ (m : ℚ) * 2 ^ e = x

namespace Format

variable {f : Format} {q : ℚ} {num den : Nat}

/-- The magnitudes of a format that need neither the smallest nor the largest exponent. -/
structure Midrange (f : Format) (q : ℚ) : Prop where
  low : 2 ^ f.precision * 2 ^ f.minExponent ≤ 2 * q
  high : 2 * q < 2 ^ f.precision * 2 ^ f.maxExponent

theorem Midrange.pos (range : f.Midrange q) : 0 < q := by
  have : (0 : ℚ) < 2 ^ f.precision * 2 ^ f.minExponent := by positivity
  linarith [range.low]

theorem Places.full {e : Int} (places : f.Places q e) (range : f.Midrange q) :
    2 ^ f.precision * 2 ^ e ≤ 2 * q := by
  rcases places.least with least | normal
  · rw [least]
    exact range.low
  · exact normal

theorem Places.lt_of_midrange {e : Int} (places : f.Places q e) (range : f.Midrange q) :
    e < f.maxExponent := by
  have lt := (places.full range).trans_lt range.high
  rw [mul_lt_mul_iff_of_pos_left (by positivity)] at lt
  exact (zpow_lt_zpow_iff_right₀ one_lt_two).mp lt

theorem stands_finish (bits : 0 < f.precision) (negative : Bool) {m : Nat} {e : Int}
    (le : m ≤ 2 ^ f.precision) (high : e < f.maxExponent) :
    (f.finish negative m e).Stands negative (m * 2 ^ e) := by
  rcases le.eq_or_lt with full | fits
  · refine ⟨_, _, finish_of_eq negative full high, ?_⟩
    rw [full, ← mul_pow_sub_one bits.ne' 2, zpow_add_one₀ two_ne_zero]
    push_cast
    ring
  · exact ⟨_, _, finish_of_lt negative fits high.le, rfl⟩

/-- **Rounding is precise**: the error is at most half a unit of the last bit. -/
theorem exists_stands_round (bits : 0 < f.precision) (negative : Bool) (pos : 0 < den)
    (ratio : (num : ℚ) / den = q) (range : f.Midrange q) :
    ∃ x, (f.round negative num den).Stands negative x ∧ |x - q| * 2 ^ f.precision ≤ q := by
  have some_bit : num ≠ 0 := by
    rintro rfl
    have := range.pos
    simp [← ratio] at this
  obtain ⟨e, m, places, nearest, finishes⟩ := exists_round f negative some_bit pos
  rw [ratio] at places nearest
  have unit := two_zpow_pos e
  refine ⟨_, finishes ▸ stands_finish bits negative (places.nearest_le nearest)
    (places.lt_of_midrange range), ?_⟩
  have error : |(m : ℚ) * 2 ^ e - q| ≤ 1 / 2 * 2 ^ e := by
    rw [abs_sub_comm]
    exact nearest.abs_sub_le
  calc |(m : ℚ) * 2 ^ e - q| * 2 ^ f.precision
      ≤ 1 / 2 * 2 ^ e * 2 ^ f.precision := mul_le_mul_of_nonneg_right error (by positivity)
    _ = 2 ^ f.precision * 2 ^ e / 2 := by ring
    _ ≤ q := by linarith [places.full range]

/-- **Rounding leaves what a format can hold.** -/
theorem stands_round (bits : 0 < f.precision) (negative : Bool) (pos : 0 < den)
    (ratio : (num : ℚ) / den = q) (range : f.Midrange q) {c : Nat} {j : Int}
    (fits : c < 2 ^ f.precision) (low : f.minExponent ≤ j) (held : q = c * 2 ^ j) :
    (f.round negative num den).Stands negative q := by
  have some_bit : num ≠ 0 := by
    rintro rfl
    have := range.pos
    simp [← ratio] at this
  obtain ⟨e, m, places, nearest, finishes⟩ := exists_round f negative some_bit pos
  rw [ratio] at places nearest
  have le : e ≤ j := by
    by_contra gt
    have normal := places.least.resolve_left (by omega)
    have double : (2 : ℚ) * 2 ^ j ≤ 2 ^ e := by
      rw [← zpow_one_add₀ two_ne_zero]
      exact zpow_le_zpow_right₀ one_le_two (by omega)
    have fits : (c : ℚ) < 2 ^ f.precision := by exact_mod_cast fits
    have := mul_lt_mul_of_pos_right fits (two_zpow_pos j)
    have := mul_le_mul_of_nonneg_left double (pow_nonneg two_pos.le f.precision : (0 : ℚ) ≤ _)
    rw [held] at normal
    linarith
  obtain ⟨n, rfl⟩ : ∃ n : Nat, j = e + n := ⟨(j - e).toNat, by omega⟩
  have whole : q / 2 ^ e = (c * 2 ^ n : Nat) := by
    rw [held, zpow_add₀ two_ne_zero, zpow_natCast, div_eq_iff (two_zpow_pos e).ne']
    push_cast
    ring
  have exact : Nearest (q / 2 ^ e) (c * 2 ^ n) := by
    rw [whole]
    constructor
    · norm_num
    · intro tie
      norm_num at tie
  have stands := stands_finish bits negative (places.nearest_le nearest)
    (places.lt_of_midrange range)
  rw [nearest.unique exact, ← whole, div_mul_cancel₀ _ (two_zpow_pos e).ne'] at stands
  rwa [finishes, nearest.unique exact]

/-! ### Products and quotients -/

variable {b c : Binary} {s t : Bool} {x y : ℚ}

theorem exists_mul_eq_round (f : Format) (left : b.Stands s x) (right : c.Stands t y) :
    ∃ num den : Nat, 0 < den ∧ (num : ℚ) / den = x * y ∧
      b.mul f c = f.round (s != t) num den := by
  obtain ⟨m, e, rfl, rfl⟩ := left
  obtain ⟨n, d, rfl, rfl⟩ := right
  refine ⟨_, _, ratio_pos (m * n) (e + d), ?_, rfl⟩
  rw [div_ratio, zpow_add₀ two_ne_zero]
  push_cast
  ring

theorem exists_div_eq_round (f : Format) (left : b.Stands s x) (right : c.Stands t y)
    (nonzero : y ≠ 0) : ∃ num den : Nat, 0 < den ∧ (num : ℚ) / den = x / y ∧
      b.div f c = f.round (s != t) num den := by
  obtain ⟨m, e, rfl, rfl⟩ := left
  obtain ⟨n, d, rfl, rfl⟩ := right
  have some_bit : n ≠ 0 := by
    rintro rfl
    simp at nonzero
  refine ⟨_, _, scaleRatio_pos m (Nat.pos_of_ne_zero some_bit) (e - d), ?_, if_neg some_bit⟩
  rw [div_scaleRatio, zpow_sub₀ two_ne_zero, mul_div_mul_comm]

theorem exists_convert_eq_round (f : Format) (stands : b.Stands s x) :
    ∃ num den : Nat, 0 < den ∧ (num : ℚ) / den = x ∧ b.convert f = f.round s num den := by
  obtain ⟨m, e, rfl, rfl⟩ := stands
  exact ⟨_, _, ratio_pos m e, div_ratio m e, rfl⟩

end Format

theorem Binary.convert_neg (f : Format) (b : Binary) : b.neg.convert f = (b.convert f).neg := by
  cases b with
  | finite s m e => exact f.round_not s _ _
  | infinite s => rfl
  | nan => rfl

end CheckAgent.Number
