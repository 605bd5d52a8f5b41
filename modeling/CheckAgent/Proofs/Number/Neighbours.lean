import CheckAgent.Proofs.Number.Rounding
import Mathlib.Tactic.LinearCombination

/-!
# Decimals near the middle between two values

A decimal with few digits may be near the middle between two neighbouring values of 32 bits, but not
too near: an error in the sixteenth digit does not carry it over the middle.

**The argument is one on fractions.** For one binary exponent `e` take the coarsest decimal grid
whose step is above nine tenths of `2 ^ e`. Its point `d * 10 ^ k` and the middle `h * 2 ^ (e - 1)`
are near each other just if `h / d` is near the ratio `A / B` of the two steps. Around this ratio
take neighbours `p / q` and `p' / q'`, that is `p' * q - p * q' = 1` (`Bracket`). Every pair `h`,
`d` is a sum of multiples of the two, and if `d` is below `q + q'` they have opposite signs
(`Bracket.exists_multiples`), so the distances of the two from the ratio add up and nothing cancels.

For each of the 254 exponents two neighbours are found by following the continued fraction of the
ratio, and their distances are compared with the error (`gridChecked`). There is one exception: the
decimal `7038531e-32` is within the error of the middle `22841339 * 2 ^ (-108)`.

Main result: `apart`.
-/

namespace CheckAgent.Number

/-- Two fractions `p / q` and `p' / q'`, the lower one first. -/
structure Bracket where
  p : Nat
  q : Nat
  p' : Nat
  q' : Nat

namespace Bracket

/-- How far the lower fraction is below `A / B`, times both denominators. -/
def below (n : Bracket) (A B : Nat) : Nat := n.q * A - n.p * B

/-- How far the upper fraction is above `A / B`, times both denominators. -/
def above (n : Bracket) (A B : Nat) : Nat := n.p' * B - n.q' * A

/-- Two fractions are neighbours, with `A / B` between them. -/
structure Around (n : Bracket) (A B : Nat) : Prop where
  neighbours : n.p' * n.q = n.p * n.q' + 1
  below : n.p * B ≤ n.q * A
  above : n.q' * A ≤ n.p' * B

instance (n : Bracket) (A B : Nat) : Decidable (n.Around A B) :=
  decidable_of_iff (n.p' * n.q = n.p * n.q' + 1 ∧ n.p * B ≤ n.q * A ∧ n.q' * A ≤ n.p' * B)
    ⟨fun ⟨h, h', h''⟩ => ⟨h, h', h''⟩, fun ⟨h, h', h''⟩ => ⟨h, h', h''⟩⟩

/-! ## Finding neighbours -/

/-- Move the fraction that is farther from `A / B` as far towards it as it goes, with a denominator
of at most `limit`. The upper fraction stays above the ratio. -/
def next (A B limit : Nat) (n : Bracket) : Bracket :=
  let u := n.below A B
  let w := n.above A B
  if w ≤ u then
    let k := if n.q' = 0 then u / w else min (u / w) ((limit - n.q) / n.q')
    { n with p := n.p + k * n.p', q := n.q + k * n.q' }
  else
    let room := (limit - n.q') / n.q
    let k := if u = 0 then room else min ((w - 1) / u) room
    { n with p' := n.p' + k * n.p, q' := n.q' + k * n.q }

/-- Move two fractions towards `A / B` until no fraction between them has a denominator of at most
`limit`. -/
def close (A B limit : Nat) : Nat → Bracket → Bracket
  | 0, n => n
  | fuel + 1, n => if limit < n.q + n.q' then n else close A B limit fuel (n.next A B limit)

/-! ## Between neighbours -/

variable {n : Bracket} {A B : Nat}

theorem Around.below_eq (around : n.Around A B) : (n.below A B : ℚ) = n.q * A - n.p * B := by
  rw [Bracket.below, Nat.cast_sub around.below]
  push_cast
  rfl

theorem Around.above_eq (around : n.Around A B) : (n.above A B : ℚ) = n.p' * B - n.q' * A := by
  rw [Bracket.above, Nat.cast_sub around.above]
  push_cast
  rfl

/-- **A fraction with a small denominator** is a multiple of one of two neighbours without a
multiple of the other one. -/
theorem exists_multiples (neighbours : n.p' * n.q = n.p * n.q' + 1) {d : Nat} (h : Nat)
    (pos : 0 < d) (small : d < n.q + n.q') :
    (∃ x y : Nat, 0 < x ∧ d + y * n.q' = x * n.q ∧ h + y * n.p' = x * n.p) ∨
      ∃ x y : Nat, 0 < y ∧ d + x * n.q = y * n.q' ∧ h + x * n.p = y * n.p' := by
  have neighbours : (n.p' * n.q : Int) = n.p * n.q' + 1 := by exact_mod_cast neighbours
  -- the two multiples, by Cramer's rule
  obtain ⟨x, x_def⟩ : ∃ x : Int, x = d * n.p' - h * n.q' := ⟨_, rfl⟩
  obtain ⟨y, y_def⟩ : ∃ y : Int, y = h * n.q - d * n.p := ⟨_, rfl⟩
  have d_eq : (d : Int) = x * n.q + y * n.q' := by
    rw [x_def, y_def]
    linear_combination d * (-neighbours)
  have h_eq : (h : Int) = x * n.p + y * n.p' := by
    rw [x_def, y_def]
    linear_combination h * (-neighbours)
  have pos : (0 : Int) < d := by exact_mod_cast pos
  have small : (d : Int) < n.q + n.q' := by exact_mod_cast small
  have q_nonneg := Int.natCast_nonneg n.q
  have q'_nonneg := Int.natCast_nonneg n.q'
  rcases lt_or_ge 0 x with x_pos | x_nonpos
  · have y_nonpos : y ≤ 0 := by
      by_contra y_pos
      nlinarith
    refine .inl ⟨x.toNat, (-y).toNat, by omega, ?_, ?_⟩ <;> zify <;>
      rw [Int.toNat_of_nonneg x_pos.le, Int.toNat_of_nonneg (by omega)] <;> linarith
  · have y_pos : 0 < y := by
      by_contra y_nonpos
      nlinarith
    refine .inr ⟨(-x).toNat, y.toNat, by omega, ?_, ?_⟩ <;> zify <;>
      rw [Int.toNat_of_nonneg y_pos.le, Int.toNat_of_nonneg (by omega)] <;> linarith

section

variable {d h x y : Nat}

theorem Around.sub_eq_of_lower (around : n.Around A B) (d_eq : d + y * n.q' = x * n.q)
    (h_eq : h + y * n.p' = x * n.p) :
    (d * A - h * B : ℚ) = x * n.below A B + y * n.above A B := by
  have d_eq : (d + y * n.q' : ℚ) = x * n.q := by exact_mod_cast d_eq
  have h_eq : (h + y * n.p' : ℚ) = x * n.p := by exact_mod_cast h_eq
  rw [around.below_eq, around.above_eq]
  linear_combination A * d_eq - B * h_eq

theorem Around.sub_eq_of_upper (around : n.Around A B) (d_eq : d + x * n.q = y * n.q')
    (h_eq : h + x * n.p = y * n.p') :
    (h * B - d * A : ℚ) = y * n.above A B + x * n.below A B := by
  have d_eq : (d + x * n.q : ℚ) = y * n.q' := by exact_mod_cast d_eq
  have h_eq : (h + x * n.p : ℚ) = y * n.p' := by exact_mod_cast h_eq
  rw [around.below_eq, around.above_eq]
  linear_combination B * h_eq - A * d_eq

end

/-- No multiple of the lower one of two neighbours, and nothing between them, is within one part in
`N` of `A / B`, unless it is equal to it. -/
def LowerFar (n : Bracket) (A B N : Nat) : Prop :=
  n.q * A < N * n.below A B ∨ n.below A B = 0 ∧ (n.q + n.q') * A ≤ N * n.above A B

instance (n : Bracket) (A B N : Nat) : Decidable (n.LowerFar A B N) := by
  unfold LowerFar
  infer_instance

/-- Nothing between two neighbours is within one part in `N` of `A / B`. A multiple of the upper one
may be. -/
def UpperFar (n : Bracket) (A B N : Nat) : Prop :=
  n.q' * A < N * n.above A B ∨ (n.q + n.q') * A ≤ N * n.below A B

instance (n : Bracket) (A B N : Nat) : Decidable (n.UpperFar A B N) := by
  unfold UpperFar
  infer_instance

section

variable {N d h x y : Nat}

/-- Fewer digits than neighbours together have, and a multiple of one of them. -/
theorem scale_le {k q : Nat} (d_eq : d + k = x * q) (A : Nat) :
    (d * A : ℚ) ≤ x * (q * A : Nat) := by
  have le : d * A ≤ x * (q * A) := by
    rw [← mul_assoc]
    exact Nat.mul_le_mul_right A (by omega)
  exact_mod_cast le

theorem lt_of_lowerFar (lower : n.LowerFar A B N) (small : d < n.q + n.q') (A_pos : 0 < A)
    (x_pos : 0 < x) (d_eq : d + y * n.q' = x * n.q) :
    n.below A B = 0 ∧ y = 0 ∨ (d * A : ℚ) < N * (x * n.below A B + y * n.above A B) := by
  have x_pos : (0 : ℚ) < x := by exact_mod_cast x_pos
  have w_nonneg : (0 : ℚ) ≤ N * (y * n.above A B) := by positivity
  rcases lower with far | ⟨on, far⟩
  · right
    have far : ((n.q * A : Nat) : ℚ) < N * n.below A B := by exact_mod_cast far
    calc (d * A : ℚ) ≤ x * (n.q * A : Nat) := scale_le d_eq A
      _ < x * (N * n.below A B) := mul_lt_mul_of_pos_left far x_pos
      _ ≤ _ := by linarith
  · rcases Nat.eq_zero_or_pos y with none | some
    · exact .inl ⟨on, none⟩
    · right
      have some : (1 : ℚ) ≤ y := by exact_mod_cast some
      have lt : d * A < N * n.above A B :=
        (Nat.mul_lt_mul_of_pos_right small A_pos).trans_le far
      have lt : (d * A : ℚ) < N * n.above A B := by exact_mod_cast lt
      rw [on]
      push_cast
      nlinarith

theorem lt_of_upperFar (upper : n.UpperFar A B N) (small : d < n.q + n.q') (A_pos : 0 < A)
    (y_pos : 0 < y) (d_eq : d + x * n.q = y * n.q') :
    N * n.above A B ≤ n.q' * A ∧ x = 0 ∨
      (d * A : ℚ) < N * (y * n.above A B + x * n.below A B) := by
  have y_pos : (0 : ℚ) < y := by exact_mod_cast y_pos
  have u_nonneg : (0 : ℚ) ≤ N * (x * n.below A B) := by positivity
  have w_nonneg : (0 : ℚ) ≤ N * (y * n.above A B) := by positivity
  rcases lt_or_ge (n.q' * A) (N * n.above A B) with far | near
  · right
    have far : ((n.q' * A : Nat) : ℚ) < N * n.above A B := by exact_mod_cast far
    calc (d * A : ℚ) ≤ y * (n.q' * A : Nat) := scale_le d_eq A
      _ < y * (N * n.above A B) := mul_lt_mul_of_pos_left far y_pos
      _ ≤ _ := by linarith
  · have far := upper.resolve_left (not_lt.mpr near)
    rcases Nat.eq_zero_or_pos x with none | some
    · exact .inl ⟨near, none⟩
    · right
      have some : (1 : ℚ) ≤ x := by exact_mod_cast some
      have lt : d * A < N * n.below A B :=
        (Nat.mul_lt_mul_of_pos_right small A_pos).trans_le far
      have lt : (d * A : ℚ) < N * n.below A B := by exact_mod_cast lt
      nlinarith

/-- **No fraction with a small denominator is near**, but for the ratio itself and the upper
neighbour where that is near. -/
theorem Around.apart (around : n.Around A B) (lower : n.LowerFar A B N) (upper : n.UpperFar A B N)
    (h : Nat) (pos : 0 < d) (small : d < n.q + n.q') (A_pos : 0 < A) :
    (d * A : ℚ) = h * B ∨ (d * A : ℚ) < N * |(d * A - h * B : ℚ)| ∨
      N * n.above A B ≤ n.q' * A ∧ ∃ y, 0 < y ∧ h = y * n.p' := by
  rcases exists_multiples around.neighbours h pos small with
    ⟨x, y, x_pos, d_eq, h_eq⟩ | ⟨x, y, y_pos, d_eq, h_eq⟩
  · have sub_eq := around.sub_eq_of_lower d_eq h_eq
    rcases lt_of_lowerFar lower small A_pos x_pos d_eq with ⟨on, none⟩ | far
    · rw [on, none] at sub_eq
      exact .inl (by simpa [sub_eq_zero] using sub_eq)
    · rw [sub_eq, abs_of_nonneg (by positivity)]
      exact .inr (.inl far)
  · have sub_eq := around.sub_eq_of_upper d_eq h_eq
    rcases lt_of_upperFar upper small A_pos y_pos d_eq with ⟨near, none⟩ | far
    · exact .inr (.inr ⟨near, y, y_pos, by simpa [none] using h_eq⟩)
    · rw [abs_sub_comm, sub_eq, abs_of_nonneg (by positivity)]
      exact .inr (.inl far)

end

end Bracket

/-! ## The grids of 32 bits -/

/-- Errors are less than one part in this number. -/
def precise : Nat := 4 * 10 ^ 15

/-- The exponent of the coarsest decimal grid whose step is above nine tenths of `2 ^ e`. -/
def gridPower (e : Int) : Int := (e * 30103 - 4576) / 100000 + 1

/-- The step of that grid in units of `2 ^ (e - 1)`, as a ratio. -/
def gridStep (e : Int) : Nat × Nat :=
  let s := Decimal.scale 1 1 (gridPower e)
  scaleRatio s.1 s.2 (1 - e)

/-- Neighbours around the step. Between them are no fractions with denominators for which the grid
has points below `2 ^ 24 * 2 ^ e`. -/
def gridBracket (e : Int) : Bracket :=
  let s := gridStep e
  Bracket.close s.1 s.2 (2 ^ 25 * s.2 / s.1) 100 ⟨0, 1, 1, 0⟩

/-- What is checked of an exponent. -/
structure GridChecked (e : Int) : Prop where
  fine : (gridStep e).1 ≤ 18 * (gridStep e).2
  coarse : 18 * (gridStep e).2 < 10 * (gridStep e).1
  around : (gridBracket e).Around (gridStep e).1 (gridStep e).2
  enough : 2 ^ 25 * (gridStep e).2 ≤ ((gridBracket e).q + (gridBracket e).q') * (gridStep e).1
  lower : (gridBracket e).LowerFar (gridStep e).1 (gridStep e).2 precise
  upper : (gridBracket e).UpperFar (gridStep e).1 (gridStep e).2 precise
  near : (gridBracket e).q' * (gridStep e).1 <
      precise * (gridBracket e).above (gridStep e).1 (gridStep e).2 ∨
    e = -107 ∧ (gridBracket e).p' = 22841339

instance (e : Int) : Decidable (GridChecked e) :=
  let s := gridStep e
  let n := gridBracket e
  decidable_of_iff ((s.1 ≤ 18 * s.2 ∧ 18 * s.2 < 10 * s.1) ∧
    (n.Around s.1 s.2 ∧ 2 ^ 25 * s.2 ≤ (n.q + n.q') * s.1) ∧
    (n.LowerFar s.1 s.2 precise ∧ n.UpperFar s.1 s.2 precise) ∧
    (n.q' * s.1 < precise * n.above s.1 s.2 ∨ e = -107 ∧ n.p' = 22841339))
    ⟨fun ⟨⟨h₁, h₂⟩, ⟨h₃, h₄⟩, ⟨h₅, h₆⟩, h₇⟩ => ⟨h₁, h₂, h₃, h₄, h₅, h₆, h₇⟩,
      fun h => ⟨⟨h.fine, h.coarse⟩, ⟨h.around, h.enough⟩, ⟨h.lower, h.upper⟩, h.near⟩⟩

/-- **Every exponent of the format is checked.** -/
theorem gridChecked {e : Int} (low : -149 ≤ e) (high : e ≤ 104) : GridChecked e := by
  have all : ∀ i : Nat, i < 254 → GridChecked (i - 149) := by decide +kernel
  have checked := all (e + 149).toNat (by omega)
  rwa [Int.toNat_of_nonneg (by omega), Int.add_sub_cancel] at checked

theorem gridStep_pos (e : Int) : (0 : ℚ) < (gridStep e).2 := by
  exact_mod_cast scaleRatio_pos _ (scale_pos 1 one_pos _) _

theorem div_gridStep (e : Int) :
    ((gridStep e).1 : ℚ) / (gridStep e).2 = 10 ^ gridPower e * 2 ^ (1 - e) := by
  rw [gridStep, div_scaleRatio, div_scale]
  norm_num

theorem ten_zpow_pos (k : Int) : (0 : ℚ) < 10 ^ k := zpow_pos (by norm_num) k

theorem two_mul_zpow_sub_one (e : Int) : (2 : ℚ) * 2 ^ (e - 1) = 2 ^ e := by
  rw [← zpow_one_add₀ two_ne_zero, add_sub_cancel]

theorem zpow_sub_one_mul (e : Int) : (2 : ℚ) ^ (e - 1) * 2 ^ (1 - e) = 1 := by
  rw [← zpow_add₀ two_ne_zero, show e - 1 + (1 - e) = 0 by omega, zpow_zero]

/-- The step of a grid is above nine tenths of the last bit, and that of the next finer one not. -/
theorem gridPower_bounds {e : Int} (low : -149 ≤ e) (high : e ≤ 104) :
    (10 : ℚ) ^ gridPower e ≤ 9 * 2 ^ e ∧ (9 : ℚ) * 2 ^ e < 10 * 10 ^ gridPower e := by
  have checked := gridChecked low high
  have step := div_gridStep e
  have unit := zpow_sub_one_mul e
  have double := two_mul_zpow_sub_one e
  have fine : ((gridStep e).1 : ℚ) ≤ 18 * (gridStep e).2 := by exact_mod_cast checked.fine
  have coarse : (18 * (gridStep e).2 : ℚ) < 10 * (gridStep e).1 := by exact_mod_cast checked.coarse
  have bit := two_zpow_pos (e - 1)
  rw [← div_le_iff₀ (gridStep_pos e), step] at fine
  rw [← lt_div_iff₀ (gridStep_pos e), mul_div_assoc, step] at coarse
  constructor
  · calc (10 : ℚ) ^ gridPower e = 10 ^ gridPower e * 2 ^ (1 - e) * 2 ^ (e - 1) := by
          linear_combination -(10 : ℚ) ^ gridPower e * unit
      _ ≤ 18 * 2 ^ (e - 1) := mul_le_mul_of_nonneg_right fine bit.le
      _ = 9 * 2 ^ e := by linear_combination 9 * double
  · calc (9 : ℚ) * 2 ^ e = 18 * 2 ^ (e - 1) := by linear_combination -9 * double
      _ < 10 * (10 ^ gridPower e * 2 ^ (1 - e)) * 2 ^ (e - 1) := mul_lt_mul_of_pos_right coarse bit
      _ = 10 * 10 ^ gridPower e := by linear_combination 10 * (10 : ℚ) ^ gridPower e * unit

/-- **A decimal is apart from the middle between two values**, unless it is the middle or one of the
two decimals that are not. -/
theorem apart {e : Int} (low : -149 ≤ e) (high : e ≤ 104) {d h : Nat} (pos : 0 < d)
    (small : (d * 10 ^ gridPower e : ℚ) < 2 ^ 24 * 2 ^ e) (bits : h < 2 ^ 25) :
    (d * 10 ^ gridPower e : ℚ) = h * 2 ^ (e - 1) ∨
      (d * 10 ^ gridPower e : ℚ) < precise * |(d * 10 ^ gridPower e - h * 2 ^ (e - 1) : ℚ)| ∨
      e = -107 ∧ h = 22841339 := by
  have checked := gridChecked low high
  have B_pos := gridStep_pos e
  have A_pos : 0 < (gridStep e).1 := by
    have := checked.coarse
    have : 0 < (gridStep e).2 := by exact_mod_cast B_pos
    omega
  -- both sides in units that make them whole numbers
  obtain ⟨c, c_def⟩ : ∃ c : ℚ, c = (gridStep e).2 * 2 ^ (1 - e) := ⟨_, rfl⟩
  have c_pos : 0 < c := by
    rw [c_def]
    exact mul_pos B_pos (two_zpow_pos _)
  have point : (d * (gridStep e).1 : ℚ) = d * 10 ^ gridPower e * c := by
    have step := (div_eq_iff B_pos.ne').mp (div_gridStep e)
    rw [step, c_def]
    ring
  have middle : (h * (gridStep e).2 : ℚ) = h * 2 ^ (e - 1) * c := by
    rw [c_def]
    linear_combination -(h * (gridStep e).2 : ℚ) * zpow_sub_one_mul e
  have lt : d < (gridBracket e).q + (gridBracket e).q' := by
    have below : (d * (gridStep e).1 : ℚ) < 2 ^ 25 * (gridStep e).2 := by
      rw [point]
      calc (d * 10 ^ gridPower e * c : ℚ) < 2 ^ 24 * 2 ^ e * c :=
            mul_lt_mul_of_pos_right small c_pos
        _ = 2 ^ 25 * (gridStep e).2 := by
          rw [c_def, ← two_mul_zpow_sub_one e]
          linear_combination 2 ^ 25 * ((gridStep e).2 : ℚ) * zpow_sub_one_mul e
    have below : d * (gridStep e).1 < 2 ^ 25 * (gridStep e).2 := by exact_mod_cast below
    exact Nat.lt_of_mul_lt_mul_right (below.trans_le checked.enough)
  rcases checked.around.apart checked.lower checked.upper h pos lt A_pos
    with on | far | ⟨near, upper⟩
  · left
    rw [point, middle] at on
    exact mul_right_cancel₀ c_pos.ne' on
  · right
    left
    rw [point, middle, ← sub_mul, abs_mul, abs_of_pos c_pos, ← mul_assoc] at far
    exact lt_of_mul_lt_mul_right far c_pos.le
  · right
    right
    obtain ⟨at_e, at_p'⟩ := checked.near.resolve_left (not_lt.mpr near)
    obtain ⟨y, y_pos, rfl⟩ := upper
    rw [at_p'] at bits ⊢
    exact ⟨at_e, by omega⟩

end CheckAgent.Number
