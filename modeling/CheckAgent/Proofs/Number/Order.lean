import CheckAgent.Proofs.Number.Rounding

/-!
# The order of binary numbers

A finite value is a rational number (`Binary.value?`), and **values are compared as the numbers that
they are**: both are brought to the smaller of their exponents, and there the mantissas decide. An
infinity lies beyond every number, and `nan` is not in the order at all. So what lies between two
numbers is a number itself (`between_iff`).
-/

namespace CheckAgent.Number.Binary

variable {a b : Binary} {x y : ℚ}

/-- The number that a finite value is. -/
def value? : Binary → Option ℚ
  | .finite s m e => some ((if s then -1 else 1) * (m * 2 ^ e))
  | _ => none

theorem exists_finite (finite : a.value? = some x) :
    ∃ s m e, a = .finite s m e ∧ x = (if s then -1 else 1) * (m * 2 ^ e) := by
  cases a with
  | finite s m e => exact ⟨s, m, e, rfl, (Option.some.inj finite).symm⟩
  | infinite s => cases finite
  | nan => cases finite

theorem mantissa_mul (m : Nat) {low e : Int} (le : low ≤ e) :
    ((m * Nat.pow 2 (e - low).toNat : Nat) : ℚ) * 2 ^ low = m * 2 ^ e := by
  obtain ⟨n, apart⟩ := Int.eq_ofNat_of_zero_le (sub_nonneg.mpr le)
  obtain rfl : e = n + low := by omega
  rw [apart, zpow_add₀ two_ne_zero]
  simp [mul_assoc]

/-- Finite values are compared as numbers. -/
theorem lt_iff (left : a.value? = some x) (right : b.value? = some y) :
    a.lt b = true ↔ x < y := by
  obtain ⟨s, m, e, rfl, rfl⟩ := exists_finite left
  obtain ⟨t, n, d, rfl, rfl⟩ := exists_finite right
  have unit := two_zpow_pos (min e d)
  rw [← mantissa_mul m (min_le_left e d), ← mantissa_mul n (min_le_right e d), ← mul_assoc,
    ← mul_assoc, mul_lt_mul_iff_of_pos_right unit]
  simp only [lt, decide_eq_true_eq]
  rw [← Int.cast_lt (R := ℚ)]
  cases s <;> cases t <;> simp

theorem isNan_of_value? (finite : a.value? = some x) : a.isNan = false := by
  obtain ⟨s, m, e, rfl, -⟩ := exists_finite finite
  rfl

theorem le_iff (left : a.value? = some x) (right : b.value? = some y) :
    a.le b = true ↔ x ≤ y := by
  have above := (lt_iff right left).not
  rw [not_lt, Bool.not_eq_true] at above
  simp [le, isNan_of_value? left, isNan_of_value? right, above]

/-- **What lies between two numbers is a number.** -/
theorem between_iff {low high : Binary} {l h : ℚ} (left : low.value? = some l)
    (right : high.value? = some h) :
    low.le b = true ∧ b.le high = true ↔ ∃ x, b.value? = some x ∧ l ≤ x ∧ x ≤ h := by
  cases b with
  | finite s m e =>
    rw [le_iff left rfl, le_iff rfl right]
    exact ⟨fun bounds => ⟨_, rfl, bounds⟩, fun ⟨x, is, bounds⟩ => Option.some.inj is ▸ bounds⟩
  | infinite s =>
    obtain ⟨t, m, e, rfl, -⟩ := exists_finite left
    obtain ⟨t', m', e', rfl, -⟩ := exists_finite right
    cases s <;> simp [le, lt, isNan, value?]
  | nan => simp [le, isNan, value?]

end CheckAgent.Number.Binary
