import CheckAgent.Fallible
import CheckAgent.Proofs.Json.Rendering
import CheckAgent.Proofs.Number.Shortest

/-!
# Real numbers, written and read

A value of 32 bits is written as its shortest decimal. The reader is not a correctly rounding one:
it rounds the digits to 64 bits, scales them by a rounded power of ten, rounds again, and narrows
the result to 32 bits. **The value is read again all the same**, for three reasons.

* *Precision*: what is read is within one part in `precise` of the decimal (`exists_scaleByTen`).
* *Distance*: a decimal that is nearest to a value and lies on its decimal grid is farther than that
  from the middle between the value and a neighbour (`apart`), so reading does not carry it across.
  Two values have a grid that comes too near, and they are read to see.
* *Exactness*: a decimal that is the middle itself has few digits and a small power of ten, and
  every step of the reader is exact (`scaleByTen_exact`).

At a power of two the grid of the decimals changes with the exponent, so the argument does not
apply; there are 253 of them, each of which is read.

Main results: `readBack?_shortest`, and `exists_value` with signs and the text of the number.
-/

namespace CheckAgent.Json

open CheckAgent.Number

/-! ## Powers of ten -/

theorem midrange_of_bounds {q : ℚ} (low : (2 : ℚ) ^ (-1000 : Int) ≤ q)
    (high : q ≤ (2 : ℚ) ^ (1000 : Int)) : binary64.Midrange q := by
  constructor
  · have : (2 : ℚ) ^ binary64.precision * 2 ^ binary64.minExponent ≤ 2 ^ (-1000 : Int) := by
      rw [← zpow_natCast, ← zpow_add₀ two_ne_zero]
      exact zpow_le_zpow_right₀ one_le_two (by decide)
    have : 0 < q := (two_zpow_pos _).trans_le low
    linarith
  · have : (2 : ℚ) * 2 ^ (1000 : Int) < 2 ^ binary64.precision * 2 ^ binary64.maxExponent := by
      rw [← zpow_natCast, ← zpow_add₀ two_ne_zero, ← zpow_one_add₀ two_ne_zero]
      exact zpow_lt_zpow_right₀ one_lt_two (by decide)
    linarith

/-- The powers of ten that are used here are far from the ends of the format. -/
theorem ten_zpow_bounds {e : Int} (small : e.natAbs ≤ 60) :
    (2 : ℚ) ^ (-240 : Int) ≤ 10 ^ e ∧ (10 : ℚ) ^ e ≤ 2 ^ (240 : Int) := by
  have one : (1 : ℚ) ≤ 10 := by norm_num
  constructor
  · calc (2 : ℚ) ^ (-240 : Int) ≤ 10 ^ (-60 : Int) := by norm_num
      _ ≤ 10 ^ e := zpow_le_zpow_right₀ one (by omega)
  · calc (10 : ℚ) ^ e ≤ 10 ^ (60 : Int) := zpow_le_zpow_right₀ one (by omega)
      _ ≤ 2 ^ (240 : Int) := by norm_num

/-- A number scaled by a power of ten, or by its reciprocal. -/
def scaled (e : Int) (s t : ℚ) : ℚ := if 0 ≤ e then s * t else s / t

theorem scaled_ten (e : Int) (s : ℚ) : scaled e s (10 ^ e.natAbs) = s * 10 ^ e := by
  unfold scaled
  split
  · next up =>
    rw [← zpow_natCast, Int.natAbs_of_nonneg up]
  · next down =>
    rw [← zpow_natCast, Int.ofNat_natAbs_of_nonpos (by omega), zpow_neg, div_inv_eq_mul]

/-- **One rounding more**: a value is scaled by a rounded power of ten and rounded again. -/
theorem exists_scaleByTen_eq {b : Binary} {s t : ℚ} {e : Int} (small : e.natAbs ≤ 308)
    (left : b.Stands false s) (right : (powerOfTen e.natAbs).Stands false t) (nonzero : t ≠ 0)
    (range : binary64.Midrange (scaled e s t)) :
    ∃ num den : Nat, 0 < den ∧ (num : ℚ) / den = scaled e s t ∧
      scaleByTen b e = .ok (binary64.round false num den) := by
  rw [scaleByTen, if_pos small]
  unfold scaled at range ⊢
  split
  · next up =>
    rw [if_pos up] at range
    obtain ⟨num, den, pos, ratio, product⟩ := Format.exists_mul_eq_round binary64 left right
    refine ⟨num, den, pos, ratio, ?_⟩
    obtain ⟨x, ⟨m, d, finite, -⟩, -⟩ :=
      Format.exists_stands_round (f := binary64) (by decide) false pos ratio range
    rw [bne_self_eq_false, finite] at product
    rw [product, finite]
  · next down =>
    obtain ⟨num, den, pos, ratio, quotient⟩ :=
      Format.exists_div_eq_round binary64 left right nonzero
    exact ⟨num, den, pos, ratio, congrArg _ quotient⟩

theorem exists_stands_ofNat {n : Nat} (pos : 0 < n) (small : (n : ℚ) ≤ 2 ^ (1000 : Int)) :
    ∃ x, (binary64.ofNat n).Stands false x ∧ |x - n| * 2 ^ 53 ≤ n := by
  have one_le : (1 : ℚ) ≤ n := by exact_mod_cast pos
  refine Format.exists_stands_round (by decide) false one_pos (by simp)
    (midrange_of_bounds (le_trans ?_ one_le) small)
  exact zpow_le_one_of_nonpos₀ one_le_two (by decide)

theorem stands_ofNat {n c : Nat} {i : Int} (pos : 0 < n) (small : (n : ℚ) ≤ 2 ^ (1000 : Int))
    (fits : c < 2 ^ 53) (low : -1074 ≤ i) (held : (n : ℚ) = c * 2 ^ i) :
    (binary64.ofNat n).Stands false n := by
  have one_le : (1 : ℚ) ≤ n := by exact_mod_cast pos
  refine Format.stands_round (by decide) false one_pos (by simp)
    (midrange_of_bounds (le_trans ?_ one_le) small) fits low held
  exact zpow_le_one_of_nonpos₀ one_le_two (by decide)

theorem word_le {n : Nat} (word : n < wordLimit) : (n : ℚ) ≤ 2 ^ (64 : Int) := by
  exact_mod_cast word.le

theorem exists_stands_word {n : Nat} (pos : 0 < n) (word : n < wordLimit) :
    ∃ s, (binary64.ofNat n).Stands false s ∧ |s - n| * 2 ^ 53 ≤ n ∧ (n < 2 ^ 53 → s = n) := by
  have small : (n : ℚ) ≤ 2 ^ (1000 : Int) :=
    (word_le word).trans (zpow_le_zpow_right₀ one_le_two (by decide))
  by_cases fits : n < 2 ^ 53
  · have least : -1074 ≤ (0 : Int) := by decide
    refine ⟨n, stands_ofNat pos small fits least (by simp), ?_, fun _ => rfl⟩
    simp
  · obtain ⟨s, stands, close⟩ := exists_stands_ofNat pos small
    exact ⟨s, stands, close, fun fits' => absurd fits' fits⟩

theorem exists_stands_powerOfTen {n : Nat} (small : n ≤ 60) :
    ∃ t, (powerOfTen n).Stands false t ∧ |t - 10 ^ n| * 2 ^ 53 ≤ 10 ^ n ∧
      (n ≤ 22 → t = 10 ^ n) := by
  have pos : 0 < 10 ^ n := Nat.pow_pos (by decide)
  have cast : ((10 ^ n : Nat) : ℚ) = 10 ^ n := by push_cast; rfl
  have le : ((10 ^ n : Nat) : ℚ) ≤ 2 ^ (1000 : Int) := by
    have bound := (ten_zpow_bounds (e := n) (by omega)).2
    rw [zpow_natCast] at bound
    rw [cast]
    exact bound.trans (zpow_le_zpow_right₀ one_le_two (by decide))
  rw [powerOfTen, Nat.pow_eq, ← cast]
  by_cases few : n ≤ 22
  · have fits : 5 ^ n < 2 ^ 53 := (Nat.pow_le_pow_right (by decide) few).trans_lt (by decide)
    have held : ((10 ^ n : Nat) : ℚ) = (5 ^ n : Nat) * 2 ^ (n : Int) := by
      rw [zpow_natCast]
      push_cast
      rw [← mul_pow]
      norm_num
    refine ⟨_, stands_ofNat pos le fits (by omega) held, ?_, fun _ => rfl⟩
    simp
  · obtain ⟨t, stands, close⟩ := exists_stands_ofNat pos le
    exact ⟨t, stands, close, fun few' => absurd few' few⟩

/-- **An error in one of two factors** is one in the result. -/
theorem scaled_close {S T s t : ℚ} (e : Int) (S_pos : 0 < S) (T_pos : 0 < T)
    (s_close : |s - S| * 2 ^ 53 ≤ S) (t_close : |t - T| * 2 ^ 53 ≤ T) (one : s = S ∨ t = T) :
    |scaled e s t - scaled e S T| * (2 ^ 53 - 1) ≤ scaled e S T := by
  unfold scaled
  split
  · rcases one with rfl | rfl
    · rw [← mul_sub, abs_mul, abs_of_pos S_pos]
      nlinarith [abs_nonneg (t - T)]
    · rw [← sub_mul, abs_mul, abs_of_pos T_pos]
      nlinarith [abs_nonneg (s - S)]
  · rcases one with rfl | rfl
    · -- the divisor is off by at most one part in `2 ^ 53 - 1` of itself
      have t_pos : 0 < t := by
        have := (abs_le.mp (le_refl |t - T|)).1
        linarith
      have relative : |T - t| * (2 ^ 53 - 1) ≤ t := by
        have := le_abs_self (T - t)
        rw [abs_sub_comm] at t_close
        linarith
      have difference : s / t - s / T = s / T * ((T - t) / t) := by
        field_simp
      rw [difference, abs_mul, abs_of_pos (div_pos S_pos T_pos), abs_div, abs_of_pos t_pos,
        mul_assoc]
      refine mul_le_of_le_one_right (div_pos S_pos T_pos).le ?_
      rwa [div_mul_eq_mul_div, div_le_one t_pos]
    · rw [← sub_div, abs_div, abs_of_pos T_pos, div_mul_eq_mul_div]
      refine div_le_div_of_nonneg_right ?_ T_pos.le
      linarith [abs_nonneg (s - S)]

theorem precise_of_close {x q Q : ℚ} (pos : 0 < Q) (first : |q - Q| * (2 ^ 53 - 1) ≤ Q)
    (second : |x - q| * 2 ^ 53 ≤ q) : precise * |x - Q| ≤ Q := by
  have total : |x - Q| ≤ |x - q| + |q - Q| := by
    have := abs_add_le (x - q) (q - Q)
    rwa [sub_add_sub_cancel] at this
  have := le_abs_self (q - Q)
  have := abs_nonneg (q - Q)
  rw [precise]
  push_cast
  linarith

theorem word_scaled_bounds {S : Nat} {e : Int} (pos : 0 < S) (word : S < wordLimit)
    (small : e.natAbs ≤ 60) :
    (2 : ℚ) ^ (-999 : Int) ≤ S * 10 ^ e ∧ (S * 10 ^ e : ℚ) ≤ 2 ^ (999 : Int) := by
  obtain ⟨ge, le⟩ := ten_zpow_bounds small
  have S_pos : (1 : ℚ) ≤ S := by exact_mod_cast pos
  constructor
  · calc (2 : ℚ) ^ (-999 : Int) ≤ 2 ^ (-240 : Int) := zpow_le_zpow_right₀ one_le_two (by decide)
      _ ≤ 10 ^ e := ge
      _ ≤ S * 10 ^ e := le_mul_of_one_le_left (ten_zpow_pos e).le S_pos
  · calc (S * 10 ^ e : ℚ) ≤ 2 ^ (64 : Int) * 2 ^ (240 : Int) :=
          mul_le_mul (word_le word) le (ten_zpow_pos e).le (two_zpow_pos _).le
      _ = 2 ^ (64 + 240 : Int) := (zpow_add₀ two_ne_zero _ _).symm
      _ ≤ 2 ^ (999 : Int) := zpow_le_zpow_right₀ one_le_two (by decide)

theorem midrange_of_close {q Q : ℚ} (low : (2 : ℚ) ^ (-999 : Int) ≤ Q) (high : Q ≤ 2 ^ (999 : Int))
    (close : |q - Q| * (2 ^ 53 - 1) ≤ Q) : binary64.Midrange q := by
  obtain ⟨below, above⟩ := abs_le.mp (le_refl |q - Q|)
  have pos : 0 < Q := (two_zpow_pos _).trans_le low
  refine midrange_of_bounds ?_ ?_
  · rw [show (-1000 : Int) = -999 - 1 by rfl, zpow_sub_one₀ two_ne_zero]
    linarith
  · rw [show (1000 : Int) = 999 + 1 by rfl, zpow_add_one₀ two_ne_zero]
    refine le_trans ?_ (mul_le_mul_of_nonneg_right high two_pos.le)
    linarith

section

variable {S : Nat} {e : Int}

/-- **Reading is precise**: a mantissa that fits a word, scaled by a power of ten. -/
theorem exists_scaleByTen (pos : 0 < S) (word : S < wordLimit) (small : e.natAbs ≤ 60)
    (easy : S < 2 ^ 53 ∨ e.natAbs ≤ 22) :
    ∃ b x, scaleByTen (binary64.ofNat S) e = .ok b ∧ b.Stands false x ∧
      precise * |x - S * 10 ^ e| ≤ S * 10 ^ e := by
  obtain ⟨s, s_stands, s_close, s_exact⟩ := exists_stands_word pos word
  obtain ⟨t, t_stands, t_close, t_exact⟩ := exists_stands_powerOfTen small
  have S_pos : (0 : ℚ) < S := by exact_mod_cast pos
  have T_pos : (0 : ℚ) < 10 ^ e.natAbs := by positivity
  have close := scaled_close e S_pos T_pos s_close t_close (easy.imp s_exact t_exact)
  have t_pos : t ≠ 0 := by
    rintro rfl
    rw [zero_sub, abs_neg, abs_of_pos T_pos] at t_close
    linarith
  rw [scaled_ten] at close
  obtain ⟨low, high⟩ := word_scaled_bounds pos word small
  have range := midrange_of_close low high close
  obtain ⟨num, den, den_pos, ratio, eq⟩ :=
    exists_scaleByTen_eq (by omega) s_stands t_stands t_pos range
  obtain ⟨x, stands, rounded⟩ :=
    Format.exists_stands_round (f := binary64) (by decide) false den_pos ratio range
  exact ⟨_, x, eq, stands, precise_of_close (mul_pos S_pos (ten_zpow_pos e)) close rounded⟩

/-- **Reading is exact** where mantissa, power and result can be held. -/
theorem scaleByTen_exact {c c' : Nat} {i j : Int} (pos : 0 < S) (word : S < wordLimit)
    (few : e.natAbs ≤ 22) (fits : c < 2 ^ 53) (low : -1074 ≤ i) (held : (S : ℚ) = c * 2 ^ i)
    (fits' : c' < 2 ^ 53) (low' : -1074 ≤ j) (held' : (S * 10 ^ e : ℚ) = c' * 2 ^ j) :
    ∃ b, scaleByTen (binary64.ofNat S) e = .ok b ∧ b.Stands false (S * 10 ^ e) := by
  have small : (S : ℚ) ≤ 2 ^ (1000 : Int) :=
    (word_le word).trans (zpow_le_zpow_right₀ one_le_two (by decide))
  obtain ⟨t, t_stands, -, t_exact⟩ := exists_stands_powerOfTen (show e.natAbs ≤ 60 by omega)
  rw [t_exact few] at t_stands
  obtain ⟨low_range, high_range⟩ := word_scaled_bounds pos word (show e.natAbs ≤ 60 by omega)
  have range : binary64.Midrange (scaled e S (10 ^ e.natAbs)) := by
    rw [scaled_ten]
    refine midrange_of_close low_range high_range ?_
    rw [sub_self, abs_zero, zero_mul]
    exact (two_zpow_pos _).le.trans low_range
  obtain ⟨num, den, den_pos, ratio, eq⟩ := exists_scaleByTen_eq (by omega)
    (stands_ofNat pos small fits low held) t_stands (by positivity) range
  rw [scaled_ten] at ratio range
  exact ⟨_, eq, Format.stands_round (f := binary64) (by decide) false den_pos ratio range fits' low'
    held'⟩

end

/-! ## Literals of decimals -/

namespace Literal

/-! ## Digits -/

theorem foldl_digits (n : Nat) (ds : List Nat) :
    ds.foldl (fun n d => n * 10 + d) n = n * 10 ^ ds.length + Decimal.ofDigits ds := by
  induction ds generalizing n with
  | nil => simp [Decimal.ofDigits]
  | cons d ds ih =>
    have first : Decimal.ofDigits (d :: ds) = (0 * 10 + d) * 10 ^ ds.length + Decimal.ofDigits ds :=
      ih (0 * 10 + d)
    rw [List.foldl_cons, ih, first, List.length_cons, pow_succ]
    ring

theorem ofDigits_append (ds ds' : List Nat) :
    Decimal.ofDigits (ds ++ ds') =
      Decimal.ofDigits ds * 10 ^ ds'.length + Decimal.ofDigits ds' := by
  rw [Decimal.ofDigits, List.foldl_append, foldl_digits]
  rfl

theorem ofDigits_replicate_zero (n : Nat) : Decimal.ofDigits (List.replicate n 0) = 0 := by
  induction n with
  | zero => rfl
  | succ n ih =>
    rw [List.replicate_succ', ofDigits_append, ih]
    rfl

theorem lt_ten_of_mem_digitsOf {n d : Nat} (mem : d ∈ digitsOf n) : d < 10 := by
  obtain ⟨c, written, rfl⟩ := List.mem_map.mp mem
  have digit := isDigit_of_mem_toDigits written
  have bounds : 48 ≤ c.toNat ∧ c.toNat ≤ 57 := by
    simpa [Char.isDigit, UInt32.le_iff_toNat_le] using digit
  show c.toNat - 48 < 10
  omega

theorem length_digitsOf_le_iff {n k : Nat} (pos : 0 < k) :
    (digitsOf n).length ≤ k ↔ n < 10 ^ k := by
  rw [digitsOf, List.length_map]
  exact Nat.length_toDigits_le_iff (by decide) pos

theorem lt_ten_pow_length (n : Nat) : n < 10 ^ (digitsOf n).length :=
  (length_digitsOf_le_iff (List.length_pos_iff.mpr (digitsOf_ne_nil n))).mp le_rfl

theorem appendDigits_eq {n : Nat} {ds : List Nat}
    (word : n * 10 ^ ds.length + Decimal.ofDigits ds < wordLimit) :
    appendDigits n ds = (n * 10 ^ ds.length + Decimal.ofDigits ds, []) := by
  induction ds generalizing n with
  | nil => simp [appendDigits, Decimal.ofDigits]
  | cons d ds ih =>
    have same : n * 10 ^ (d :: ds).length + Decimal.ofDigits (d :: ds) =
        (n * 10 + d) * 10 ^ ds.length + Decimal.ofDigits ds := by
      rw [← foldl_digits, ← foldl_digits, List.foldl_cons]
    rw [same] at word ⊢
    have le : n * 10 + d ≤ (n * 10 + d) * 10 ^ ds.length + Decimal.ofDigits ds :=
      (Nat.le_mul_of_pos_right _ (Nat.pow_pos (by decide))).trans (Nat.le_add_right _ _)
    rw [appendDigits, if_pos (le.trans_lt word), ih word]

/-! ## Mantissa and power -/

/-- All digits of a literal. -/
def mantissa (l : Literal) : Nat := l.whole * 10 ^ l.fraction.length + Decimal.ofDigits l.fraction

/-- The power of ten of the last digit. -/
def power (l : Literal) : Int := l.exponent.getD 0 - l.fraction.length

/-- **The reading of a literal** whose digits fit a word. -/
theorem magnitude_eq {l : Literal} (word : l.mantissa < wordLimit)
    (small : (l.exponent.getD 0).natAbs < 2 ^ 31) :
    l.magnitude = scaleByTen (binary64.ofNat l.mantissa) l.power := by
  have whole_word :
      0 * 10 ^ (digitsOf l.whole).length + Decimal.ofDigits (digitsOf l.whole) < wordLimit := by
    rw [ofDigits_digitsOf]
    refine lt_of_le_of_lt ?_ word
    rw [zero_mul, zero_add, mantissa]
    exact (Nat.le_mul_of_pos_right _ (Nat.pow_pos (by decide))).trans (Nat.le_add_right _ _)
  rw [magnitude, appendDigits_eq whole_word, ofDigits_digitsOf, zero_mul, zero_add]
  dsimp only
  rw [appendDigits_eq word, if_neg (by rw [Nat.pow_eq]; omega)]
  rw [mantissa, power]
  congr 1
  simp
  omega

/-- A decimal as a literal with a point. -/
def ofDecimal? (s : Bool) (d : Decimal) : Option Literal :=
  let n := (digitsOf d.digits).length
  if 0 ≤ d.exponent ∧ d.exponent + n ≤ 16 then
    some ⟨s, d.digits * Nat.pow 10 d.exponent.toNat, [0], none⟩
  else if d.exponent < 0 ∧ -5 ≤ d.exponent + n then
    let places := (-d.exponent).toNat
    let fraction := digitsOf (d.digits % Nat.pow 10 places)
    some ⟨s, d.digits / Nat.pow 10 places,
      List.replicate (places - fraction.length) 0 ++ fraction, none⟩
  else
    match digitsOf d.digits with
    | [] => none
    | lead :: rest => some ⟨s, lead, rest, some (d.exponent + rest.length)⟩

theorem ofBinary?_finite (f : Format) (s : Bool) (m : Nat) (e : Int) :
    ofBinary? f (.finite s m e) = ofDecimal? s (Decimal.shortest f m e) := rfl

theorem ofDecimal?_sign (s : Bool) (d : Decimal) :
    ofDecimal? s d = (ofDecimal? false d).map fun l => { l with negative := s } := by
  unfold ofDecimal?
  dsimp only
  split
  · rfl
  · split
    · rfl
    · cases digitsOf d.digits <;> rfl

/-- A literal whose text is a number with a point or an exponent. -/
structure Pointed (l : Literal) : Prop where
  plain : l.Plain
  pointed : l.fraction ≠ [] ∨ l.exponent ≠ none

theorem pointed_of_ofDecimal? {s : Bool} {d : Decimal} {l : Literal}
    (written : ofDecimal? s d = some l) : l.Pointed := by
  unfold ofDecimal? at written
  dsimp only at written
  split at written
  · cases written
    refine ⟨fun digit mem => ?_, .inl (List.cons_ne_nil _ _)⟩
    rw [List.mem_singleton.mp mem]
    decide
  · split at written
    · cases written
      constructor
      · intro digit mem
        rcases List.mem_append.mp mem with zero | digits
        · rw [List.eq_of_mem_replicate zero]
          decide
        · exact lt_ten_of_mem_digitsOf digits
      · exact .inl (List.append_ne_nil_of_right_ne_nil _ (digitsOf_ne_nil _))
    · cases digits : digitsOf d.digits with
      | nil => exact absurd digits (digitsOf_ne_nil _)
      | cons lead rest =>
        rw [digits] at written
        cases written
        refine ⟨fun digit mem => ?_, .inr (Option.some_ne_none _)⟩
        exact lt_ten_of_mem_digitsOf (digits ▸ List.mem_cons_of_mem lead mem)

/-- A literal that is written for a decimal. -/
structure Writes (l : Literal) (d : Decimal) : Prop where
  small : (l.exponent.getD 0).natAbs < 2 ^ 31
  value : (l.mantissa * 10 ^ l.power : ℚ) = d.value
  /-- The digits are those of the decimal, or zeros up to the point and one behind it are added. -/
  digits : l.mantissa = d.digits ∧ l.power = d.exponent ∨ l.mantissa < 10 ^ 17 ∧ l.power = -1

section

variable (s : Bool) {d : Decimal}

theorem writes_whole {n : Nat} (whole : d.exponent = n)
    (short : n + (digitsOf d.digits).length ≤ 16) :
    Writes ⟨s, d.digits * 10 ^ n, [0], none⟩ d := by
  have bound : d.digits * 10 ^ n * 10 < 10 ^ 17 := by
    have lt := lt_ten_pow_length d.digits
    generalize (digitsOf d.digits).length = k at lt short
    have : d.digits * 10 ^ n < 10 ^ k * 10 ^ n := Nat.mul_lt_mul_of_pos_right lt (by positivity)
    have : 10 ^ k * 10 ^ n ≤ 10 ^ 16 := by
      rw [← pow_add]
      exact Nat.pow_le_pow_right (by decide) (by omega)
    omega
  refine ⟨Nat.two_pow_pos 31, ?_, .inr ⟨?_, rfl⟩⟩
  · simp only [mantissa, power, Decimal.ofDigits, Decimal.value, whole]
    simp
  · simpa [mantissa, Decimal.ofDigits] using bound

/-- A number with its point among the digits, or a few zeros before them, keeps the digits. -/
theorem writes_places {p : Nat} (below : d.exponent = -p) (some_place : 0 < p) {ds : List Nat}
    (digits : digitsOf (d.digits % 10 ^ p) = ds) :
    Writes ⟨s, d.digits / 10 ^ p, List.replicate (p - ds.length) 0 ++ ds, none⟩ d := by
  have fits : ds.length ≤ p := by
    rw [← digits]
    exact (length_digitsOf_le_iff some_place).mpr (Nat.mod_lt _ (Nat.pow_pos (by decide)))
  generalize fraction_eq : List.replicate (p - ds.length) 0 ++ ds = fraction
  have length : fraction.length = p := by
    rw [← fraction_eq, List.length_append, List.length_replicate]
    omega
  have value : Decimal.ofDigits fraction = d.digits % 10 ^ p := by
    rw [← fraction_eq, ofDigits_append, ofDigits_replicate_zero, ← digits, ofDigits_digitsOf,
      zero_mul, zero_add]
  have all : d.digits / 10 ^ p * 10 ^ fraction.length + Decimal.ofDigits fraction = d.digits := by
    rw [length, value, Nat.div_add_mod']
  refine ⟨Nat.two_pow_pos 31, ?_, .inl ⟨all, ?_⟩⟩
  · simp only [mantissa, all, power, Decimal.value, below, Option.getD_none, zero_sub]
    rw [length]
  · simp only [power, length, below, Option.getD_none, zero_sub]

/-- A very large or small number gets an exponent. -/
theorem writes_exponent {lead : Nat} {rest : List Nat} (digits : digitsOf d.digits = lead :: rest)
    (short : rest.length < 17) (small : d.exponent.natAbs < 2 ^ 30) :
    Writes ⟨s, lead, rest, some (d.exponent + rest.length)⟩ d := by
  have all : lead * 10 ^ rest.length + Decimal.ofDigits rest = d.digits := by
    rw [← ofDigits_digitsOf d.digits, digits, ← foldl_digits, Decimal.ofDigits, List.foldl_cons,
      zero_mul, zero_add]
  have same : d.exponent + rest.length - rest.length = d.exponent := add_sub_cancel_right _ _
  refine ⟨?_, ?_, .inl ⟨all, same⟩⟩
  · rw [Option.getD_some]
    omega
  · simp only [mantissa, power, Decimal.value, all, Option.getD_some, same]

/-- **What is written for a decimal.** -/
theorem exists_writes (few : d.digits < 10 ^ 17) (small : d.exponent.natAbs < 2 ^ 30) :
    ∃ l, ofDecimal? s d = some l ∧ l.Writes d := by
  unfold ofDecimal?
  dsimp only
  split
  · next whole =>
    obtain ⟨n, n_eq⟩ := Int.eq_ofNat_of_zero_le whole.1
    rw [n_eq, Int.toNat_natCast]
    exact ⟨_, rfl, writes_whole s n_eq (by omega)⟩
  · split
    · next below =>
      obtain ⟨p, p_eq⟩ : ∃ p : Nat, d.exponent = -p := ⟨(-d.exponent).toNat, by omega⟩
      rw [p_eq, neg_neg, Int.toNat_natCast]
      exact ⟨_, rfl, writes_places s p_eq (by omega) rfl⟩
    · have short : (digitsOf d.digits).length ≤ 17 :=
        (length_digitsOf_le_iff (by decide)).mpr few
      cases digits : digitsOf d.digits with
      | nil => exact absurd digits (digitsOf_ne_nil _)
      | cons lead rest =>
        rw [digits, List.length_cons] at short
        exact ⟨_, rfl, writes_exponent s digits (by omega) small⟩

end

end Literal

/-! ## Reading what is written -/

theorem Stands.unique {b : Binary} {s : Bool} {x y : ℚ} (h : b.Stands s x) (h' : b.Stands s y) :
    x = y := by
  obtain ⟨m, e, rfl, rfl⟩ := h
  obtain ⟨m', e', same, rfl⟩ := h'
  cases same
  rfl

theorem five_pow_dvd {a b n : Nat} {i : Int} (eq : (a : ℚ) = b * 5 ^ n * 2 ^ i) : 5 ^ n ∣ a := by
  rcases le_total 0 i with up | down
  · obtain ⟨j, rfl⟩ := Int.eq_ofNat_of_zero_le up
    have whole : a = 5 ^ n * (b * 2 ^ j) := by
      rw [zpow_natCast] at eq
      have : a = b * 5 ^ n * 2 ^ j := by exact_mod_cast eq
      rw [this]
      ring
    exact ⟨_, whole⟩
  · obtain ⟨j, rfl⟩ : ∃ j : Nat, i = -j := ⟨(-i).toNat, by omega⟩
    have whole : a * 2 ^ j = 5 ^ n * b := by
      rw [zpow_neg, zpow_natCast, ← div_eq_mul_inv, eq_div_iff (by positivity)] at eq
      have : a * 2 ^ j = b * 5 ^ n := by exact_mod_cast eq
      rw [this]
      ring
    exact (Nat.Coprime.pow n j (by decide)).dvd_of_dvd_mul_right ⟨b, whole⟩

theorem lt_of_five_pow_dvd {a n : Nat} (pos : 0 < a) (fits : a < 2 ^ 28) (divides : 5 ^ n ∣ a) :
    n ≤ 22 := by
  by_contra large
  have le : 5 ^ 23 ≤ 5 ^ n := Nat.pow_le_pow_right (by decide) (by omega)
  have := Nat.le_of_dvd pos divides
  omega

/-- A small number scaled by a power of ten is one scaled by a power of two for few powers only. -/
theorem natAbs_le_of_eq {a h : Nat} {k j : Int} (a_pos : 0 < a) (a_lt : a < 2 ^ 28) (h_pos : 0 < h)
    (h_lt : h < 2 ^ 28) (eq : (a * 10 ^ k : ℚ) = h * 2 ^ j) : k.natAbs ≤ 22 := by
  have ten (n : Nat) : (10 : ℚ) ^ n = 5 ^ n * 2 ^ n := by
    rw [← mul_pow]
    norm_num
  have two (i : Int) : (2 : ℚ) ^ i * 2 ^ (-i) = 1 := by
    rw [← zpow_add₀ two_ne_zero, add_neg_cancel, zpow_zero]
  rcases le_total 0 k with up | down
  · obtain ⟨n, rfl⟩ := Int.eq_ofNat_of_zero_le up
    rw [zpow_natCast, ten] at eq
    rw [Int.natAbs_natCast]
    refine lt_of_five_pow_dvd h_pos h_lt (five_pow_dvd (b := a) (i := n - j) ?_)
    rw [sub_eq_add_neg, zpow_add₀ two_ne_zero, zpow_natCast]
    linear_combination (-(2 : ℚ) ^ (-j)) * eq - (h : ℚ) * two j
  · obtain ⟨n, rfl⟩ : ∃ n : Nat, k = -n := ⟨(-k).toNat, by omega⟩
    rw [Int.natAbs_neg, Int.natAbs_natCast]
    rw [zpow_neg, zpow_natCast, ← div_eq_mul_inv, div_eq_iff (by positivity), ten] at eq
    refine lt_of_five_pow_dvd a_pos a_lt (five_pow_dvd (b := h) (i := n + j) ?_)
    rw [zpow_add₀ two_ne_zero, zpow_natCast]
    linear_combination eq

namespace Literal.Writes

variable {l : Literal} {d : Decimal} {m : Nat} {e : Int}

theorem mantissa_pos (writes : l.Writes d) (some_digit : 0 < d.digits) : 0 < l.mantissa := by
  refine Nat.pos_of_ne_zero fun zero => ?_
  have value := writes.value
  have positive := Decimal.value_pos some_digit
  rw [zero, Nat.cast_zero, zero_mul] at value
  exact positive.ne value

theorem mantissa_lt (writes : l.Writes d) (short : d.Short m e) : l.mantissa < wordLimit := by
  have few := short.few
  rw [wordLimit, Nat.pow_eq]
  rcases writes.digits with ⟨same, -⟩ | ⟨lt, -⟩ <;> omega

theorem power_small (writes : l.Writes d) (short : d.Short m e) : l.power.natAbs ≤ 60 := by
  have := short.low
  have := short.high
  rcases writes.digits with ⟨-, same⟩ | ⟨-, same⟩ <;> omega

theorem easy (writes : l.Writes d) (short : d.Short m e) :
    l.mantissa < 2 ^ 53 ∨ l.power.natAbs ≤ 22 := by
  have few := short.few
  rcases writes.digits with ⟨same, -⟩ | ⟨-, same⟩
  · left; omega
  · right; omega

/-- A decimal that is the middle between two values is read exactly. -/
theorem exact_of_middle (writes : l.Writes d) (short : d.Short m e) (low : -149 ≤ e) {h : Nat}
    (bits : h < 2 ^ 25) (middle : d.value = h * 2 ^ (e - 1)) :
    ∃ b, scaleByTen (binary64.ofNat l.mantissa) l.power = .ok b ∧ b.Stands false d.value := by
  have pos := writes.mantissa_pos short.some_digit
  have word := writes.mantissa_lt short
  have value := writes.value
  have some_digit := short.some_digit
  have few := short.few
  have positive := Decimal.value_pos some_digit
  have h_pos : 0 < h := by
    refine Nat.pos_of_ne_zero fun zero => ?_
    rw [zero, Nat.cast_zero, zero_mul] at middle
    exact positive.ne' middle
  have fits : h < 2 ^ 53 := by omega
  rw [← value] at middle ⊢
  rcases writes.digits with ⟨mantissa, power⟩ | ⟨lt, power⟩
  · rw [mantissa] at pos word middle ⊢
    rw [power] at middle ⊢
    have small := natAbs_le_of_eq some_digit few h_pos (by omega) middle
    exact scaleByTen_exact pos word small (c := d.digits) (i := 0) (by omega) (by decide) (by simp)
      fits (by omega) middle
  · rw [power] at middle ⊢
    have held : (l.mantissa : ℚ) = (5 * h : Nat) * 2 ^ e := by
      rw [← two_mul_zpow_sub_one e]
      push_cast
      have : (10 : ℚ) ^ (-1 : Int) = 1 / 10 := by norm_num
      rw [this] at middle
      linarith
    exact scaleByTen_exact pos word (by decide) (by omega) (by omega) held fits (by omega) middle

/-- **What is read** is within a part in `precise` of the decimal, and the decimal itself where that
is the middle between two values. -/
theorem exists_magnitude (writes : l.Writes d) (short : d.Short m e) (low : -149 ≤ e) :
    ∃ b x, l.magnitude = .ok b ∧ b.Stands false x ∧ precise * |x - d.value| ≤ d.value ∧
      ∀ h : Nat, h < 2 ^ 25 → d.value = h * 2 ^ (e - 1) → x = d.value := by
  have pos := writes.mantissa_pos short.some_digit
  have word := writes.mantissa_lt short
  obtain ⟨b, x, read, stands, close⟩ :=
    exists_scaleByTen pos word (writes.power_small short) (writes.easy short)
  rw [writes.value] at close
  refine ⟨b, x, (magnitude_eq word writes.small).trans read, stands, close, ?_⟩
  intro h bits middle
  obtain ⟨b', read', stands'⟩ := writes.exact_of_middle short low bits middle
  rw [read] at read'
  cases read'
  exact Stands.unique stands stands'

end Literal.Writes

/-! ## Back to the value -/

/-- The two values next to the middle that a decimal is too near to. -/
def IsNear (m : Nat) (e : Int) : Prop := e = -107 ∧ (m = 11420669 ∨ m = 11420670)

instance (m : Nat) (e : Int) : Decidable (IsNear m e) := by
  unfold IsNear
  infer_instance

variable {d : Decimal} {m : Nat} {e : Int} {x : ℚ}

theorem lt_or_eq_of_middle (canonical : binary32.Canonical m e) (far : ¬ IsNear m e)
    (short : d.Short m e) {c : Nat} (grid : d.value = c * 10 ^ gridPower e) (h : Nat)
    (side : h = 2 * m + 1 ∨ h + 1 = 2 * m) (close : precise * |x - d.value| ≤ d.value)
    (exact : ∀ h : Nat, h < 2 ^ 25 → d.value = h * 2 ^ (e - 1) → x = d.value) :
    x = d.value ∨ |x - d.value| < |d.value - h * 2 ^ (e - 1)| := by
  have fits : m < 2 ^ 24 := canonical.fits
  have bits : h < 2 ^ 25 := by omega
  have small := Decimal.value_lt_of_nearest fits short.reads
  have positive := Decimal.value_pos short.some_digit
  have c_pos : 0 < c := by
    refine Nat.pos_of_ne_zero fun zero => ?_
    rw [zero, Nat.cast_zero, zero_mul] at grid
    exact positive.ne' grid
  rw [grid] at small
  rcases apart canonical.low canonical.high c_pos small bits with on | off | ⟨at_e, at_h⟩
  · rw [← grid] at on
    exact .inl (exact h bits on)
  · rw [← grid] at off
    right
    have precise_pos : (0 : ℚ) < precise := by exact_mod_cast (by decide : 0 < precise)
    exact lt_of_mul_lt_mul_left (close.trans_lt off) precise_pos.le
  · exact absurd ⟨at_e, by omega⟩ far

/-- **What is read is nearest to the value** for which the decimal was written. -/
theorem nearest_of_precise (canonical : binary32.Canonical m e) (far : ¬ IsNear m e)
    (some_bit : m ≠ 0) (short : d.Short m e) (close : precise * |x - d.value| ≤ d.value)
    (exact : ∀ h : Nat, h < 2 ^ 25 → d.value = h * 2 ^ (e - 1) → x = d.value) :
    Nearest (x / 2 ^ e) m := by
  have unit := two_zpow_pos e
  rcases short.grid with ⟨c, grid⟩ | near
  · -- between the two middles, where the decimal is
    have step := lt_or_eq_of_middle canonical far short grid (2 * m + 1) (.inl rfl) close exact
    have step' :=
      lt_or_eq_of_middle canonical far short grid (2 * m - 1) (.inr (by omega)) close exact
    rcases step with same | above
    · exact same ▸ short.reads
    rcases step' with same | below
    · exact same ▸ short.reads
    have double := two_mul_zpow_sub_one e
    have upper : ((2 * m + 1 : Nat) : ℚ) * 2 ^ (e - 1) = m * 2 ^ e + 1 / 2 * 2 ^ e := by
      push_cast
      linear_combination ((m : ℚ) + 1 / 2) * double
    have lower : ((2 * m - 1 : Nat) : ℚ) * 2 ^ (e - 1) = m * 2 ^ e - 1 / 2 * 2 ^ e := by
      rw [Nat.cast_sub (by omega)]
      push_cast
      linear_combination ((m : ℚ) - 1 / 2) * double
    obtain ⟨ge, le⟩ := abs_le.mp short.reads.abs_sub_le
    rw [upper, abs_of_nonpos (by linarith : d.value - (m * 2 ^ e + 1 / 2 * 2 ^ e) ≤ 0)] at above
    rw [lower, abs_of_nonneg (by linarith : 0 ≤ d.value - (m * 2 ^ e - 1 / 2 * 2 ^ e))] at below
    have := (abs_lt.mp above).2
    have := (abs_lt.mp below).1
    exact nearest_of_lt (abs_lt.mpr ⟨by linarith, by linarith⟩)
  · have small := Decimal.value_lt_of_nearest canonical.fits short.reads
    have total := abs_add_le (x - d.value) (d.value - m * 2 ^ e)
    rw [sub_add_sub_cancel] at total
    rw [precise] at close
    push_cast at close
    exact nearest_of_lt (by linarith)

/-- The value of 32 bits that is read from a decimal as it is written. -/
def readBack? (d : Decimal) : Option Binary := do
  let l ← Literal.ofDecimal? false d
  let b ← l.magnitude.toOption
  pure (b.convert binary32)

theorem readBack?_eq_some_iff {b : Binary} : readBack? d = some b ↔
    ∃ l c, Literal.ofDecimal? false d = some l ∧ l.magnitude = .ok c ∧ c.convert binary32 = b := by
  simp only [readBack?, Option.bind_eq_bind, Option.bind_eq_some_iff, toOption_eq_some_iff]
  constructor
  · rintro ⟨l, written, c, read, same⟩
    exact ⟨l, c, written, read, Option.some.inj same⟩
  · rintro ⟨l, c, written, read, rfl⟩
    exact ⟨l, written, c, read, rfl⟩

/-! ### Powers of two -/

/-- The power of two `2 ^ 23 * 2 ^ e` in steps of the decimal grid `k`, as a ratio. -/
def powerSteps (e k : Int) : Nat × Nat :=
  let v := Binary.ratio (2 ^ 23) e
  Decimal.scale v.1 v.2 (-k)

theorem div_powerSteps (e k : Int) : ((powerSteps e k).1 : ℚ) / (powerSteps e k).2 =
    (2 ^ 23 : Nat) * 2 ^ e / 10 ^ k := by
  rw [powerSteps, div_scale, div_ratio, zpow_neg, div_eq_mul_inv]

theorem powerSteps_pos (e k : Int) : (0 : ℚ) < (powerSteps e k).2 := by
  exact_mod_cast scale_pos _ (ratio_pos _ _) _

/-- What is checked of a power of two: the grid of its leading digit, and that it is read back. -/
structure PowerChecked (e k : Int) : Prop where
  ge : (powerSteps e k).2 ≤ (powerSteps e k).1
  lt : (powerSteps e k).1 < 10 * (powerSteps e k).2
  reads : readBack? (Decimal.normalize 30 (Decimal.search binary32 (2 ^ 23) e 25 k)) =
    some (.finite false (2 ^ 23) e)

instance (e k : Int) : Decidable (PowerChecked e k) :=
  let s := powerSteps e k
  decidable_of_iff ((s.2 ≤ s.1 ∧ s.1 < 10 * s.2) ∧
    readBack? (Decimal.normalize 30 (Decimal.search binary32 (2 ^ 23) e 25 k)) =
      some (.finite false (2 ^ 23) e))
    ⟨fun ⟨⟨h, h'⟩, h''⟩ => ⟨h, h', h''⟩, fun h => ⟨⟨h.ge, h.lt⟩, h.reads⟩⟩

theorem PowerChecked.readBack?_eq {k : Int} (checked : PowerChecked e k) (low : -400 ≤ k)
    (high : k < 400) :
    readBack? (Decimal.shortest binary32 (2 ^ 23) e) = some (.finite false (2 ^ 23) e) := by
  have ge : ((powerSteps e k).2 : ℚ) ≤ (powerSteps e k).1 := by exact_mod_cast checked.ge
  have lt : ((powerSteps e k).1 : ℚ) < 10 * (powerSteps e k).2 := by exact_mod_cast checked.lt
  rw [← one_le_div₀ (powerSteps_pos e k), div_powerSteps, one_le_div₀ (ten_zpow_pos k)] at ge
  rw [← div_lt_iff₀ (powerSteps_pos e k), div_powerSteps, div_lt_iff₀ (ten_zpow_pos k),
    ← zpow_one_add₀ (by norm_num), add_comm] at lt
  rw [Decimal.shortest_eq binary32 (by decide) low high ge lt]
  exact checked.reads

/-- **A power of two is read back.** Every one of the format is checked. -/
theorem readBack?_power (low : -148 ≤ e) (high : e ≤ 104) :
    readBack? (Decimal.shortest binary32 (2 ^ 23) e) = some (.finite false (2 ^ 23) e) := by
  have all : ∀ i : Nat, i < 253 → PowerChecked (i - 148) ((i - 125) * 30103 / 100000) := by
    decide +kernel
  obtain ⟨i, rfl⟩ : ∃ i : Nat, e = i - 148 := ⟨(e + 148).toNat, by omega⟩
  exact (all i (by omega)).readBack?_eq (by omega) (by omega)

/-! ### All values -/

/-- **Every value is read back** from the decimal with which it is written. -/
theorem readBack?_shortest (canonical : binary32.Canonical m e) :
    readBack? (Decimal.shortest binary32 m e) = some (.finite false m e) := by
  have low : -149 ≤ e := canonical.low
  have high : e ≤ 104 := canonical.high
  have fits : m < 2 ^ 24 := canonical.fits
  by_cases some_bit : m = 0
  · have least : e = -149 := canonical.normal.resolve_right (by rw [some_bit]; decide)
    rw [some_bit, least]
    decide +kernel
  by_cases power : m = 2 ^ 23 ∧ e ≠ -149
  · rw [power.1]
    exact readBack?_power (by omega) high
  by_cases near : IsNear m e
  · obtain ⟨rfl, rfl | rfl⟩ := near <;> decide +kernel
  have inside : e = -149 ∨ 2 ^ 24 ≠ 2 * m := by omega
  have short := Decimal.short_of_canonical canonical some_bit inside
  obtain ⟨l, written, writes⟩ := Literal.exists_writes false (short.few.trans (by decide))
    (by have := short.low; have := short.high; omega)
  obtain ⟨b, x, read, stands, close, exact⟩ := writes.exists_magnitude short low
  have nearest := nearest_of_precise canonical near some_bit short close exact
  obtain ⟨num, den, pos, ratio, rounds⟩ := Format.exists_convert_eq_round binary32 stands
  refine readBack?_eq_some_iff.mpr ⟨l, b, written, read, rounds.trans ?_⟩
  exact Format.round_eq_finite false pos ratio canonical some_bit inside nearest

/-! ## Signs -/

theorem Literal.Pointed.value_eq {l : Literal} (pointed : l.Pointed) :
    l.value = l.magnitude >>= fun b => pure (.real (if l.negative then b.neg else b)) := by
  rw [Literal.value, if_neg]
  rintro ⟨no_fraction, no_exponent, -⟩
  rcases pointed.pointed with some_fraction | some_exponent
  · exact some_fraction (List.isEmpty_iff.mp no_fraction)
  · exact some_exponent (Option.isNone_iff_eq_none.mp no_exponent)

/-- **Every value is a number when it is written**, and the number is read as the value. -/
theorem exists_value (canonical : binary32.Canonical m e) (s : Bool) :
    ∃ l b, Literal.ofBinary? binary32 (.finite s m e) = some l ∧ l.Plain ∧
      l.value = .ok (.real b) ∧ b.convert binary32 = .finite s m e := by
  obtain ⟨l, b, written, read, same⟩ := readBack?_eq_some_iff.mp (readBack?_shortest canonical)
  have signed : Literal.ofDecimal? s (Decimal.shortest binary32 m e) =
      some { l with negative := s } := by
    rw [Literal.ofDecimal?_sign, written, Option.map_some]
  have pointed := Literal.pointed_of_ofDecimal? signed
  rw [Literal.ofBinary?_finite]
  refine ⟨_, if s then b.neg else b, signed, pointed.plain, ?_, ?_⟩
  · rw [pointed.value_eq]
    exact congrArg (· >>= _) read
  · cases s with
    | false => exact same
    | true =>
      rw [if_pos rfl, Binary.convert_neg, same]
      rfl

end CheckAgent.Json
