import CheckAgent.Proofs.Number.Neighbours
import Mathlib.Data.Int.Log

/-!
# Short decimals

A value of 32 bits is written with the fewest digits that are read back. The grids of decimals are
tried from the one of its leading digit downwards (`leading_spec`), and a grid whose step is at most
nine tenths of the last bit has a point that is read back, so **no finer one is needed**
(`search_spec`).

The decimal that is found is read back; it has few digits; and it is on a grid with a step above
nine tenths of the last bit, or it is the point of a finer grid that is nearest to the value
(`short_of_canonical`).

A power of two is left out: the values below it are nearer than those above it. The interval of
the others has the value in its middle.
-/

namespace CheckAgent.Number

namespace Decimal

/-- The number that a decimal stands for. -/
def value (d : Decimal) : ℚ := d.digits * 10 ^ d.exponent

theorem value_pos {d : Decimal} (some_digit : 0 < d.digits) : 0 < d.value :=
  mul_pos (by exact_mod_cast some_digit) (zpow_pos (by norm_num) d.exponent)

theorem normalize_spec (fuel : Nat) (d : Decimal) (some_digit : 0 < d.digits) :
    (normalize fuel d).value = d.value ∧ d.exponent ≤ (normalize fuel d).exponent ∧
      0 < (normalize fuel d).digits := by
  induction fuel generalizing d with
  | zero => exact ⟨rfl, le_rfl, some_digit⟩
  | succ fuel ih =>
    rw [normalize]
    split
    · next zero =>
      obtain ⟨n, n_eq⟩ : ∃ n, d.digits = 10 * n := Nat.dvd_of_mod_eq_zero zero.2
      have shorter : d.digits / 10 = n := by omega
      rw [shorter]
      obtain ⟨same, le, pos⟩ := ih ⟨n, d.exponent + 1⟩ (by dsimp only; omega)
      refine ⟨same.trans ?_, by dsimp only at le; omega, pos⟩
      rw [value, value, n_eq, zpow_add_one₀ (by norm_num)]
      push_cast
      ring
    · exact ⟨rfl, le_rfl, some_digit⟩

/-- **The leading digit.** -/
theorem leading_spec (fuel : Nat) {num den : Nat} (pos : 0 < den) (e : Int)
    (ge : (10 : ℚ) ^ e ≤ num / den) (lt : (num / den : ℚ) < 10 ^ (e + fuel)) :
    (10 : ℚ) ^ leading fuel num den e ≤ num / den ∧
      (num / den : ℚ) < 10 ^ (leading fuel num den e + 1) := by
  induction fuel generalizing e with
  | zero =>
    rw [Nat.cast_zero, add_zero] at lt
    exact absurd lt (not_lt.mpr ge)
  | succ fuel ih =>
    have small : (scale num den (-(e + 1))).1 < (scale num den (-(e + 1))).2 ↔
        (num / den : ℚ) < 10 ^ (e + 1) := by
      rw [← Nat.cast_lt (α := ℚ), ← div_lt_one (by exact_mod_cast scale_pos num pos _), div_scale,
        zpow_neg, ← div_eq_mul_inv, div_lt_one (ten_zpow_pos _)]
    rw [leading]
    split
    · next here => exact ⟨ge, small.mp here⟩
    · next further =>
      refine ih (e + 1) (not_lt.mp (mt small.mpr further)) ?_
      rwa [show e + 1 + (fuel : Int) = e + (fuel + 1 : Nat) by push_cast; ring]

theorem exists_zpow_bounds {x : ℚ} (pos : 0 < x) :
    ∃ k : Int, (10 : ℚ) ^ k ≤ x ∧ x < 10 ^ (k + 1) := by
  refine ⟨Int.log 10 x, ?_, ?_⟩
  · exact_mod_cast Int.zpow_log_le_self (b := 10) (by norm_num) pos
  · exact_mod_cast Int.lt_zpow_succ_log_self (b := 10) (by norm_num) x

theorem eq_of_zpow_bounds {x : ℚ} {j k : Int} (j_le : (10 : ℚ) ^ j ≤ x) (lt_j : x < 10 ^ (j + 1))
    (k_le : (10 : ℚ) ^ k ≤ x) (lt_k : x < 10 ^ (k + 1)) : j = k := by
  have one : (1 : ℚ) < 10 := by norm_num
  have := (zpow_lt_zpow_iff_right₀ one).mp (j_le.trans_lt lt_k)
  have := (zpow_lt_zpow_iff_right₀ one).mp (k_le.trans_lt lt_j)
  omega

variable {m : Nat} {e k : Int}

theorem shortest_eq (f : Format) (some_bit : m ≠ 0) (low : -400 ≤ k) (high : k < 400)
    (ge : (10 : ℚ) ^ k ≤ m * 2 ^ e) (lt : (m * 2 ^ e : ℚ) < 10 ^ (k + 1)) :
    shortest f m e = normalize 30 (search f m e 25 k) := by
  have one : (1 : ℚ) ≤ 10 := by norm_num
  have ratio : ((scaleRatio m 1 e).1 : ℚ) / (scaleRatio m 1 e).2 = m * 2 ^ e := div_ratio m e
  obtain ⟨lead_le, lt_lead⟩ := leading_spec 800 (ratio_pos m e) (-400)
    (ratio ▸ (zpow_le_zpow_right₀ one low).trans ge)
    (ratio ▸ lt.trans_le (zpow_le_zpow_right₀ one (by omega)))
  rw [Binary.ratio, ratio] at lead_le lt_lead
  rw [shortest, if_neg some_bit]
  dsimp only
  rw [eq_of_zpow_bounds lead_le lt_lead ge lt]

/-! ## Decimals that are read back -/

/-- The interval of a value has the value in its middle unless it is a power of two. -/
theorem interval_eq {f : Format} (bits : 0 < f.precision)
    (inside : e = f.minExponent ∨ 2 ^ f.precision ≠ 2 * m) :
    interval f m e = (4 * m - 2, 4 * m, 4 * m + 2) := by
  refine if_neg ?_
  rintro ⟨power, above⟩
  have full : 2 * 2 ^ (f.precision - 1) = 2 ^ f.precision := mul_pow_sub_one bits.ne' 2
  rw [Nat.pow_eq] at power
  omega

section

variable {a b c d : Nat}

theorem cross_le_iff (b_pos : 0 < b) (d_pos : 0 < d) : a * d ≤ c * b ↔ (a / b : ℚ) ≤ c / d := by
  rw [div_le_div_iff₀ (by exact_mod_cast b_pos) (by exact_mod_cast d_pos)]
  exact_mod_cast Iff.rfl

theorem cross_lt_iff (b_pos : 0 < b) (d_pos : 0 < d) : a * d < c * b ↔ (a / b : ℚ) < c / d := by
  rw [div_lt_div_iff₀ (by exact_mod_cast b_pos) (by exact_mod_cast d_pos)]
  exact_mod_cast Iff.rfl

end

/-- **A decimal is read back** if the mantissa is the nearest whole number. -/
theorem readsBack_iff {f : Format} (some_bit : m ≠ 0)
    (centred : interval f m e = (4 * m - 2, 4 * m, 4 * m + 2)) (d : Nat) (k : Int) :
    readsBack f m e d k = true ↔ Nearest (d * 10 ^ k / 2 ^ e) m := by
  have unit := two_zpow_pos e
  have point : ((scale d 1 k).1 : ℚ) / (scale d 1 k).2 = d * 10 ^ k := by
    rw [div_scale, Nat.cast_one, div_one]
  have quarter (a : Nat) : ((scaleRatio a 1 (e - 2)).1 : ℚ) / (scaleRatio a 1 (e - 2)).2 =
      a / 4 * 2 ^ e := by
    rw [div_scaleRatio, zpow_sub₀ two_ne_zero]
    norm_num
    ring
  have pos (a : Nat) := scaleRatio_pos a one_pos (e - 2)
  have pos' := scale_pos d one_pos k
  have lower : ((4 * m - 2 : Nat) / 4 : ℚ) = m - 1 / 2 := by
    rw [Nat.cast_sub (by omega)]
    push_cast
    ring
  have upper : ((4 * m + 2 : Nat) / 4 : ℚ) = m + 1 / 2 := by
    push_cast
    ring
  rw [nearest_iff, readsBack, centred]
  dsimp only
  split
  · rw [Bool.and_eq_true, decide_eq_true_iff, decide_eq_true_iff, cross_le_iff (pos _) pos',
      cross_le_iff pos' (pos _), point, quarter, quarter, lower, upper, le_div_iff₀ unit,
      div_le_iff₀ unit]
  · rw [Bool.and_eq_true, decide_eq_true_iff, decide_eq_true_iff, cross_lt_iff (pos _) pos',
      cross_lt_iff pos' (pos _), point, quarter, quarter, lower, upper, lt_div_iff₀ unit,
      div_lt_iff₀ unit]

/-- So is one that is at most nine twentieths of the last bit away. -/
theorem nearest_of_close {x : ℚ} (close : |x - m * 2 ^ e| ≤ 9 / 20 * 2 ^ e) :
    Nearest (x / 2 ^ e) m :=
  nearest_of_lt (close.trans_lt (mul_lt_mul_of_pos_right (by norm_num) (two_zpow_pos e)))

/-- A number between two points of a decimal grid, `rest` steps above the lower one. -/
structure Between (k : Int) (x : ℚ) (d : Nat) (rest : ℚ) : Prop where
  nonneg : 0 ≤ rest
  lt_one : rest < 1
  eq : x = (d + rest) * 10 ^ k

section

variable {x rest : ℚ} {d : Nat}

theorem Between.abs_below (between : Between k x d rest) :
    |value ⟨d, k⟩ - x| = rest * 10 ^ k := by
  have distance : value ⟨d, k⟩ - x = -(rest * 10 ^ k) := by
    rw [value, between.eq]
    ring
  rw [distance, abs_neg, abs_of_nonneg (mul_nonneg between.nonneg (ten_zpow_pos k).le)]

theorem Between.abs_above (between : Between k x d rest) :
    |value ⟨d + 1, k⟩ - x| = (1 - rest) * 10 ^ k := by
  have distance : value ⟨d + 1, k⟩ - x = (1 - rest) * 10 ^ k := by
    rw [value, between.eq]
    push_cast
    ring
  have rest_le : 0 ≤ 1 - rest := by linarith [between.lt_one]
  rw [distance, abs_of_nonneg (mul_nonneg rest_le (ten_zpow_pos k).le)]

end

theorem between_of_scale (m : Nat) (e k : Int) {s : Nat × Nat}
    (scaled : scale (scaleRatio m 1 e).1 (scaleRatio m 1 e).2 (-k) = s) :
    Between k (m * 2 ^ e) (s.1 / s.2) ((s.1 % s.2 : Nat) / s.2) := by
  subst scaled
  have pos := scale_pos (scaleRatio m 1 e).1 (scaleRatio_pos m one_pos e) (-k)
  refine ⟨by positivity, mod_div_lt_one _ pos, ?_⟩
  rw [← div_eq_add_mod _ pos, div_scale, div_scaleRatio, zpow_neg, Nat.cast_one, div_one, mul_assoc,
    inv_mul_cancel₀ (ten_zpow_pos k).ne', mul_one]

/-- **No grid is needed below one with a fine step.** What is found is read back, and on the finest
grid that may be needed it is the point nearest to the value. -/
theorem search_spec {f : Format} (some_bit : m ≠ 0)
    (centred : interval f m e = (4 * m - 2, 4 * m, 4 * m + 2)) {finest : Int}
    (fine : (10 : ℚ) ^ finest ≤ 9 / 10 * 2 ^ e) (fuel : Nat) (k : Int) (low : finest ≤ k)
    (enough : k < finest + fuel) :
    Nearest ((search f m e fuel k).value / 2 ^ e) m ∧ finest ≤ (search f m e fuel k).exponent ∧
      ((search f m e fuel k).exponent = finest →
        |(search f m e fuel k).value - m * 2 ^ e| ≤ 9 / 20 * 2 ^ e) := by
  induction fuel generalizing k with
  | zero => omega
  | succ fuel ih =>
    have reads (d : Nat) : readsBack f m e d k = true ↔ Nearest (value ⟨d, k⟩ / 2 ^ e) m :=
      readsBack_iff some_bit centred d k
    rw [search]
    generalize scaled : scale (scaleRatio m 1 e).1 (scaleRatio m 1 e).2 (-k) = s
    have between := between_of_scale m e k scaled
    have le_half := mod_div_le_half_iff s.1
      (scaled ▸ scale_pos (scaleRatio m 1 e).1 (scaleRatio_pos m one_pos e) (-k) : 0 < s.2)
    generalize ((s.1 % s.2 : Nat) : ℚ) / s.2 = rest at between le_half
    generalize s.1 / s.2 = d at between ⊢
    -- on the finest grid the nearer point is close to the value, and so it is read back
    have close_below (small : rest ≤ 1 / 2) (at_finest : k = finest) :
        |value ⟨d, k⟩ - m * 2 ^ e| ≤ 9 / 20 * 2 ^ e := by
      rw [between.abs_below, at_finest]
      nlinarith [ten_zpow_pos finest]
    have close_above (large : 1 / 2 ≤ rest) (at_finest : k = finest) :
        |value ⟨d + 1, k⟩ - m * 2 ^ e| ≤ 9 / 20 * 2 ^ e := by
      rw [between.abs_above, at_finest]
      nlinarith [ten_zpow_pos finest]
    have reads_below (small : rest ≤ 1 / 2) (at_finest : k = finest) : readsBack f m e d k = true :=
      (reads d).mpr (nearest_of_close (close_below small at_finest))
    have reads_above (large : 1 / 2 ≤ rest) (at_finest : k = finest) :
        readsBack f m e (d + 1) k = true :=
      (reads (d + 1)).mpr (nearest_of_close (close_above large at_finest))
    split
    · next below above =>
      split
      · next half => exact ⟨(reads d).mp below, low, close_below (le_half.mpr half)⟩
      · next half =>
        have large := not_le.mp (mt le_half.mp half)
        exact ⟨(reads (d + 1)).mp above, low, close_above large.le⟩
    · next below above =>
      refine ⟨(reads d).mp below, low, fun at_finest => close_below ?_ at_finest⟩
      by_contra large
      rw [reads_above (not_le.mp large).le at_finest] at above
      cases above
    · next below above =>
      refine ⟨(reads (d + 1)).mp above, low, fun at_finest => close_above ?_ at_finest⟩
      by_contra small
      rw [reads_below (not_le.mp small).le at_finest] at below
      cases below
    · next below above =>
      have further : k ≠ finest := by
        intro at_finest
        rcases le_total rest (1 / 2) with small | large
        · rw [reads_below small at_finest] at below
          cases below
        · rw [reads_above large at_finest] at above
          cases above
      exact ih (k - 1) (by omega) (by omega)

/-! ## What is written of a value -/

/-- A decimal that is written for a value of 32 bits. -/
structure Short (m : Nat) (e : Int) (d : Decimal) : Prop where
  some_digit : 0 < d.digits
  few : d.digits < 2 ^ 28
  low : -45 ≤ d.exponent
  high : d.exponent ≤ 38
  reads : Nearest (d.value / 2 ^ e) m
  grid : (∃ c : Nat, d.value = c * 10 ^ gridPower e) ∨ |d.value - m * 2 ^ e| ≤ 9 / 20 * 2 ^ e

theorem value_lt_of_nearest {x : ℚ} (fits : m < 2 ^ 24) (nearest : Nearest (x / 2 ^ e) m) :
    x < 2 ^ 24 * 2 ^ e := by
  rw [← div_lt_iff₀ (two_zpow_pos e)]
  have near := (abs_le.mp nearest.near).2
  have fits : (m : ℚ) + 1 ≤ 2 ^ 24 := by exact_mod_cast fits
  linarith

theorem value_pos_of_nearest {x : ℚ} (some_bit : m ≠ 0) (nearest : Nearest (x / 2 ^ e) m) :
    0 < x := by
  have near := (abs_le.mp nearest.near).1
  have some_bit : (1 : ℚ) ≤ m := by exact_mod_cast Nat.one_le_iff_ne_zero.mpr some_bit
  exact (div_pos_iff_of_pos_right (two_zpow_pos e)).mp (by linarith)

theorem digits_pos_of_value {d : Decimal} (pos : 0 < d.value) : 0 < d.digits := by
  refine Nat.pos_of_ne_zero fun zero => ?_
  rw [value, zero] at pos
  simp at pos

theorem lt_of_ten_zpow_lt {j : Int} (lt : (10 : ℚ) ^ j < 10 ^ k) : j < k :=
  (zpow_lt_zpow_iff_right₀ (by norm_num)).mp lt

/-- The largest values have thirty-nine digits. -/
theorem le_of_ten_zpow_lt (high : e ≤ 104) (lt : (10 : ℚ) ^ k < 2 ^ 24 * 2 ^ e) : k ≤ 38 := by
  have unit_le : (2 : ℚ) ^ e ≤ 2 ^ (104 : Int) := zpow_le_zpow_right₀ one_le_two high
  have : (10 : ℚ) ^ k < 10 ^ (39 : Int) := by
    norm_num at unit_le ⊢
    linarith
  have := lt_of_ten_zpow_lt this
  omega

/-- **The leading digit of a value** is not below the finest grid that may be needed, nor far above
it. -/
theorem leading_bounds (some_bit : m ≠ 0) (fits : m < 2 ^ 24) (low : -149 ≤ e) (high : e ≤ 104)
    (ge : (10 : ℚ) ^ k ≤ m * 2 ^ e) (lt : (m * 2 ^ e : ℚ) < 10 ^ (k + 1)) :
    gridPower e - 1 ≤ k ∧ k < gridPower e + 24 := by
  obtain ⟨fine, coarse⟩ := gridPower_bounds low high
  have unit := two_zpow_pos e
  have bit : (1 : ℚ) ≤ m := by exact_mod_cast Nat.one_le_iff_ne_zero.mpr some_bit
  have bits : (m : ℚ) < 2 ^ 24 := by exact_mod_cast fits
  constructor
  · have : (10 : ℚ) ^ gridPower e < 10 ^ (k + 2) := by
      rw [show k + 2 = k + 1 + 1 by ring, zpow_add_one₀ (by norm_num)]
      nlinarith
    have := lt_of_ten_zpow_lt this
    omega
  · have : (10 : ℚ) ^ k < 10 ^ (gridPower e + 10) := by
      rw [zpow_add₀ (by norm_num)]
      norm_num
      nlinarith
    have := lt_of_ten_zpow_lt this
    omega

theorem few_of_nearest {d : Decimal} (fits : m < 2 ^ 24) (low : -149 ≤ e) (high : e ≤ 104)
    (reads : Nearest (d.value / 2 ^ e) m) (fine : gridPower e - 1 ≤ d.exponent) :
    d.digits < 2 ^ 28 := by
  have coarse := (gridPower_bounds low high).2
  have lt := value_lt_of_nearest fits reads
  have step_ge : (10 : ℚ) ^ gridPower e ≤ 10 * 10 ^ d.exponent := by
    rw [← zpow_one_add₀ (by norm_num)]
    exact zpow_le_zpow_right₀ (by norm_num) (by omega)
  have unit := two_zpow_pos e
  have few : (d.digits : ℚ) < 2 ^ 28 := by
    by_contra many
    rw [value] at lt
    nlinarith
  exact_mod_cast few

/-- **What is written is short.** -/
theorem short_of_canonical (canonical : binary32.Canonical m e) (some_bit : m ≠ 0)
    (inside : e = -149 ∨ 2 ^ 24 ≠ 2 * m) : Short m e (shortest binary32 m e) := by
  have fits : m < 2 ^ 24 := canonical.fits
  have low : -149 ≤ e := canonical.low
  have high : e ≤ 104 := canonical.high
  have unit := two_zpow_pos e
  have bits : (m : ℚ) < 2 ^ 24 := by exact_mod_cast fits
  have least : -44 ≤ gridPower e := by
    rw [gridPower]
    omega
  -- from the grid of the leading digit to the finest grid that may be needed
  obtain ⟨k, k_le, lt_k⟩ := exists_zpow_bounds (show (0 : ℚ) < m * 2 ^ e by positivity)
  obtain ⟨ge, lt⟩ := leading_bounds some_bit fits low high k_le lt_k
  have k_high := le_of_ten_zpow_lt high (k_le.trans_lt (mul_lt_mul_of_pos_right bits unit))
  have fine : (10 : ℚ) ^ (gridPower e - 1) ≤ 9 / 10 * 2 ^ e := by
    have := (gridPower_bounds low high).1
    rw [zpow_sub_one₀ (by norm_num)]
    linarith
  obtain ⟨reads, exponent_ge, close⟩ := search_spec some_bit
    (interval_eq (f := binary32) (by decide) inside) fine 25 k ge (by push_cast; omega)
  rw [shortest_eq binary32 some_bit (by omega) (by omega) k_le lt_k]
  generalize search binary32 m e 25 k = found at *
  obtain ⟨same, exponent_le, some_digit⟩ :=
    normalize_spec 30 found (digits_pos_of_value (value_pos_of_nearest some_bit reads))
  generalize normalize 30 found = d at *
  rw [← same] at reads close
  constructor
  case some_digit => exact some_digit
  case few => exact few_of_nearest fits low high reads (exponent_ge.trans exponent_le)
  case low => omega
  case high =>
    refine le_of_ten_zpow_lt high (lt_of_le_of_lt ?_ (value_lt_of_nearest fits reads))
    exact le_mul_of_one_le_left (ten_zpow_pos d.exponent).le (by exact_mod_cast some_digit)
  case reads => exact reads
  case grid =>
    rcases exponent_ge.eq_or_lt with at_finest | above
    · exact .inr (close at_finest.symm)
    · left
      obtain ⟨n, n_eq⟩ : ∃ n : Nat, found.exponent = gridPower e + n :=
        ⟨(found.exponent - gridPower e).toNat, by omega⟩
      refine ⟨found.digits * 10 ^ n, ?_⟩
      rw [same, value, n_eq, zpow_add₀ (by norm_num), zpow_natCast]
      push_cast
      ring

end Decimal

end CheckAgent.Number
