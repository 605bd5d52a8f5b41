import CheckAgent.Proofs.Number.Order

/-!
# The size of binary numbers

An operation gives its exact result, rounded, and **rounding does not lead past a power of two**: a
ratio of at most `2 ^ k` is rounded to a value of at most `2 ^ k` (`within_round`). So sizes are
counted in powers of two: those of a product add up, and a sum needs one more. An operation on
values that are not negative does not give a negative one either; but it may give `nan`.
-/

namespace CheckAgent.Number

/-- A whole number above the nearest one is not exceeded by it. -/
theorem Nearest.le_of_le {x : ℚ} {m n : Nat} (nearest : Nearest x m) (le : x ≤ n) : m ≤ n := by
  have near := (abs_le.mp nearest.near).1
  have lt : (m : ℚ) < n + 1 := by linarith
  exact Nat.lt_succ_iff.mp (by exact_mod_cast lt)

namespace Binary

/-- A finite value of at most a power of two, whatever its sign. -/
def Within : Binary → Int → Prop
  | .finite _ m e, k => (m : ℚ) * 2 ^ e ≤ 2 ^ k
  | _, _ => False

variable {b c : Binary} {x y : ℚ} {j k : Int}

theorem Within.exists_finite (within : b.Within k) :
    ∃ s m e, b = .finite s m e ∧ (m : ℚ) * 2 ^ e ≤ 2 ^ k := by
  cases b with
  | finite s m e => exact ⟨s, m, e, rfl, within⟩
  | infinite | nan => cases within

theorem abs_sign_mul (s : Bool) (m : Nat) (e : Int) :
    |(if s then -1 else 1) * ((m : ℚ) * 2 ^ e)| = m * 2 ^ e := by
  have pos := mul_nonneg (Nat.cast_nonneg (α := ℚ) m) (two_zpow_pos e).le
  cases s <;> simp [abs_mul]

theorem within_iff : b.Within k ↔ ∃ x, b.value? = some x ∧ |x| ≤ 2 ^ k := by
  cases b with
  | finite s m e => simp only [Within, value?, Option.some.injEq, exists_eq_left', abs_sign_mul]
  | infinite | nan => simp [Within, value?]

theorem Within.mono (within : b.Within j) (le : j ≤ k) : b.Within k := by
  obtain ⟨s, m, e, rfl, size⟩ := within.exists_finite
  exact size.trans (zpow_le_zpow_right₀ one_le_two le)

theorem within_neg : b.neg.Within k ↔ b.Within k := by
  cases b <;> rfl

end Binary

namespace Format

variable {f : Format} {num den : Nat} {k : Int}

/-- The powers of two that a format has room for. -/
structure Reaches (f : Format) (k : Int) : Prop where
  bits : 0 < f.precision
  low : f.minExponent ≤ k
  high : k < f.maxExponent

/-- **Rounding does not lead past a power of two.** -/
theorem within_round (reaches : f.Reaches k) (negative : Bool) (pos : 0 < den)
    (le : (num : ℚ) / den ≤ 2 ^ k) : (f.round negative num den).Within k := by
  have limit := two_zpow_pos k
  by_cases some_bit : num = 0
  · rw [round, if_pos some_bit]
    simpa [zero, Binary.Within] using limit.le
  obtain ⟨e, m, places, nearest, finishes⟩ := exists_round f negative some_bit pos
  have low : e ≤ k := by
    rcases places.least with least | full
    · rw [least]
      exact reaches.low
    · have two : (2 : ℚ) ≤ 2 ^ f.precision := le_self_pow₀ one_le_two reaches.bits.ne'
      have : (2 : ℚ) * 2 ^ e ≤ 2 * 2 ^ k :=
        (mul_le_mul_of_nonneg_right two (two_zpow_pos e).le).trans (full.trans (by linarith))
      exact (zpow_le_zpow_iff_right₀ one_lt_two).mp (le_of_mul_le_mul_left this two_pos)
  obtain ⟨n, rfl⟩ : ∃ n : Nat, k = e + n := ⟨(k - e).toNat, by omega⟩
  -- the power of two is a whole number of units of the last bit
  have mantissa : m ≤ 2 ^ n := nearest.le_of_le <| by
    rw [div_le_iff₀ (two_zpow_pos e)]
    rw [zpow_add₀ two_ne_zero, zpow_natCast] at le
    push_cast
    linarith
  obtain ⟨m', e', rounded, size⟩ := stands_finish reaches.bits negative
    (places.nearest_le nearest) (Int.lt_of_le_of_lt low reaches.high)
  rw [finishes, rounded]
  show (m' : ℚ) * 2 ^ e' ≤ 2 ^ (e + (n : Int))
  rw [size, zpow_add₀ two_ne_zero, zpow_natCast, mul_comm]
  exact mul_le_mul_of_nonneg_left (by exact_mod_cast mantissa) (two_zpow_pos e).le

theorem isNegative_round (f : Format) (negative : Bool) (num den : Nat) :
    (f.round negative num den).isNegative = negative := by
  by_cases some_bit : num = 0
  · rw [round, if_pos some_bit]
    rfl
  · rw [round_eq f negative some_bit, finish, apply_ite Binary.isNegative]
    exact ite_self _

end Format

namespace Binary

variable {f : Format} {b c : Binary} {x y : ℚ} {j k : Int}

/-! ## Sizes -/

theorem within_mul (reaches : f.Reaches (j + k)) (left : b.Within j) (right : c.Within k) :
    (b.mul f c).Within (j + k) := by
  obtain ⟨s, m, e, rfl, hm⟩ := left.exists_finite
  obtain ⟨t, n, d, rfl, hn⟩ := right.exists_finite
  refine f.within_round reaches _ (ratio_pos (m * n) (e + d)) ?_
  rw [div_ratio, zpow_add₀ two_ne_zero, zpow_add₀ two_ne_zero]
  push_cast
  calc (m : ℚ) * n * (2 ^ e * 2 ^ d) = (m * 2 ^ e) * (n * 2 ^ d) := by ring
    _ ≤ 2 ^ j * 2 ^ k := mul_le_mul hm hn (by positivity) (two_zpow_pos j).le

theorem within_add (reaches : f.Reaches (k + 1)) (left : b.Within k) (right : c.Within k) :
    (b.add f c).Within (k + 1) := by
  obtain ⟨s, m, e, rfl, hm⟩ := left.exists_finite
  obtain ⟨t, n, d, rfl, hn⟩ := right.exists_finite
  rw [← mantissa_mul m (min_le_left e d)] at hm
  rw [← mantissa_mul n (min_le_right e d)] at hn
  simp only [add]
  generalize m * Nat.pow 2 (e - min e d).toNat = m at hm ⊢
  generalize n * Nat.pow 2 (d - min e d).toNat = n at hn ⊢
  generalize min e d = low at hm hn ⊢
  have size : ((if s then -1 else 1) * (m : Int) + (if t then -1 else 1) * (n : Int)).natAbs ≤
      m + n := by
    cases s <;> cases t <;> simp <;> omega
  generalize (if s then -1 else 1) * (m : Int) + (if t then -1 else 1) * (n : Int) = sum at size ⊢
  by_cases cancels : sum = 0
  · rw [if_pos cancels]
    simpa [Format.zero, Within] using (two_zpow_pos (k + 1)).le
  · rw [if_neg cancels]
    refine f.within_round reaches _ (ratio_pos _ low) ?_
    have size : (sum.natAbs : ℚ) ≤ m + n := by exact_mod_cast size
    rw [div_ratio, zpow_add_one₀ two_ne_zero]
    calc (sum.natAbs : ℚ) * 2 ^ low ≤ (m + n) * 2 ^ low :=
          mul_le_mul_of_nonneg_right size (two_zpow_pos low).le
      _ = m * 2 ^ low + n * 2 ^ low := by ring
      _ ≤ 2 ^ k * 2 := by linarith

/-- A divisor of at least a power of two takes off its exponent. -/
theorem within_div (reaches : f.Reaches (j - k)) (left : b.Within j) (right : c.value? = some y)
    (le : 2 ^ k ≤ |y|) : (b.div f c).Within (j - k) := by
  obtain ⟨s, m, e, rfl, hm⟩ := left.exists_finite
  obtain ⟨t, n, d, rfl, rfl⟩ := exists_finite right
  rw [abs_sign_mul] at le
  have divisor := (two_zpow_pos k).trans_le le
  have some_bit : n ≠ 0 := by
    rintro rfl
    simp at divisor
  rw [div, if_neg some_bit]
  refine f.within_round reaches _ (scaleRatio_pos m (Nat.pos_of_ne_zero some_bit) _) ?_
  rw [div_scaleRatio, zpow_sub₀ two_ne_zero, zpow_sub₀ two_ne_zero, ← mul_div_mul_comm]
  exact div_le_div₀ (two_zpow_pos j).le hm (two_zpow_pos k) le

theorem within_ofNat {n k : Nat} (reaches : f.Reaches k) (le : n ≤ 2 ^ k) :
    (f.ofNat n).Within k := by
  refine f.within_round reaches false one_pos ?_
  rw [Nat.cast_one, div_one, zpow_natCast]
  exact_mod_cast le

/-! ## Signs -/

theorem isNegative_mul (left : b.isNegative = false) (right : c.isNegative = false) :
    (b.mul f c).isNegative = false := by
  cases b <;> cases c <;> simp only [isNegative] at left right <;> subst_vars
  case finite.finite => exact f.isNegative_round _ _ _
  case finite.infinite | infinite.finite =>
    rw [mul]
    split <;> rfl
  all_goals rfl

theorem isNegative_div (left : b.isNegative = false) (right : c.isNegative = false) :
    (b.div f c).isNegative = false := by
  cases b <;> cases c <;> simp only [isNegative] at left right <;> subst_vars
  case finite.finite =>
    rw [div]
    split
    · split <;> rfl
    · exact f.isNegative_round _ _ _
  all_goals rfl

theorem isNegative_add (left : b.isNegative = false) (right : c.isNegative = false) :
    (b.add f c).isNegative = false := by
  cases b <;> cases c <;> simp only [isNegative] at left right <;> subst_vars
  case finite.finite m e n d =>
    simp only [add, Bool.false_eq_true, if_false, one_mul]
    split
    · rfl
    · rw [f.isNegative_round]
      exact decide_eq_false (by omega)
  all_goals rfl

theorem isNegative_powAux {n : Nat} (left : b.isNegative = false) (right : c.isNegative = false) :
    (powAux f b c n).isNegative = false := by
  have next (b c : Binary) (n : Nat) (left : b.isNegative = false) (right : c.isNegative = false) :
      (if n % 2 = 1 then b.mul f c else b).isNegative = false := by
    split
    · exact isNegative_mul left right
    · exact left
  fun_induction powAux f b c n with
  | case1 b c n _ last => exact next b c n left right
  | case2 b c n _ more ih => exact ih (next b c n left right) (isNegative_mul right right)

theorem isNegative_pow (n : Nat) (right : c.isNegative = false) :
    (c.pow f n).isNegative = false :=
  isNegative_powAux (f.isNegative_round false 1 1) right

/-! ## Bounds -/

/-- The larger of zero and a number, or `nan`, is a number. -/
theorem value?_maxNum (bounded : b = .nan ∨ b.Within k) :
    ∃ x, (b.maxNum (f.zero false)).value? = some x ∧ 0 ≤ x ∧ x ≤ 2 ^ k := by
  have zero : (f.zero false).value? = some 0 := by simp [Format.zero, value?]
  have limit := (two_zpow_pos k).le
  rcases bounded with rfl | within
  · exact ⟨0, zero, le_rfl, limit⟩
  · obtain ⟨x, is, le⟩ := within_iff.mp within
    rw [maxNum, isNan_of_value? is, isNan_of_value? zero]
    by_cases below : b.lt (f.zero false)
    · exact ⟨0, by simpa [below] using zero, le_rfl, limit⟩
    · have above : ¬ x < 0 := (lt_iff is zero).not.mp below
      exact ⟨x, by simpa [below] using is, not_lt.mp above, (le_abs_self x).trans le⟩

/-- The smaller of two values that are not negative is a number if one of them is. -/
theorem value?_minNum (left : b.isNegative = false) (right : c.isNegative = false)
    (within : c.Within k) :
    ∃ x, (b.minNum c).value? = some x ∧ 0 ≤ x ∧ x ≤ 2 ^ k := by
  obtain ⟨t, n, d, rfl, le⟩ := within.exists_finite
  obtain rfl : t = false := right
  have magnitude (m : Nat) (e : Int) : (finite false m e).value? = some ((m : ℚ) * 2 ^ e) := by
    simp [value?]
  have pos (m : Nat) (e : Int) : (0 : ℚ) ≤ m * 2 ^ e := by positivity
  cases b with
  | nan => exact ⟨_, magnitude n d, pos n d, le⟩
  | infinite s =>
    obtain rfl : s = false := left
    exact ⟨_, magnitude n d, pos n d, le⟩
  | finite s m e =>
    obtain rfl : s = false := left
    simp only [minNum, isNan, Bool.false_eq_true, if_false]
    by_cases above : (finite false n d).lt (finite false m e) = true
    · rw [if_pos above]
      exact ⟨_, magnitude n d, pos n d, le⟩
    · have below := not_lt.mp ((lt_iff (magnitude n d) (magnitude m e)).not.mp above)
      rw [if_neg above]
      exact ⟨_, magnitude m e, pos m e, below.trans le⟩

/-- What lies between two values is no larger than they are. -/
theorem within_clamp {low high : Binary} (left : low.Within k) (right : high.Within k)
    (number : b.isNan = false) : (b.clamp low high).Within k := by
  obtain ⟨l, is_low, small⟩ := within_iff.mp left
  obtain ⟨h, is_high, small'⟩ := within_iff.mp right
  rw [clamp]
  split
  · exact left
  · split
    · exact right
    · next low_le le_high =>
      have between : low.le b = true ∧ b.le high = true := by
        simp [le, number, isNan_of_value? is_low, isNan_of_value? is_high, low_le, le_high]
      obtain ⟨x, is, bounds⟩ := (between_iff is_low is_high).mp between
      have size := (abs_le_max_abs_abs bounds.1 bounds.2).trans (max_le small small')
      exact within_iff.mpr ⟨x, is, size⟩

theorem eq_nan_of_isNan (none : b.isNan = true) : b = .nan := by
  cases b with
  | nan => rfl
  | finite | infinite => cases none

theorem add_nan (f : Format) (b : Binary) : b.add f nan = nan := by
  cases b <;> rfl

theorem clamp_nan (low high : Binary) : nan.clamp low high = nan := by
  cases low <;> cases high <;> rfl

end Binary

end CheckAgent.Number
