import CheckAgent.Proofs.Number.Size
import CheckAgent.Proofs.Retry.Timetable

/-!
# Delays that can be computed

A delay is a number of seconds that is turned into a span, and there is no span for a number below
zero, for one that is too large, and for none at all. A policy is `Moderate` if its factor is not
negative, its cap is not far beyond all times, and its jitter is at most the whole delay.

**Main result** (`drawn_of_moderate`). A moderate policy has every delay, as long as an offset can
be drawn. Its powers may grow beyond all numbers or be lost on the way, for an interval of any
length: the cap stands in for what is too large and for what is none. From there on all numbers are
small.

So the retryers that double their delays have all their delays (`Retryer.computes_doubling`), with
the spread that a policy has by itself and with any other (`Retryer.computes_withJitter`). Where the
delays can be computed, an operation ends with the outcome of an attempt (`ending_ne_fault`,
`run_of_computes`).
-/

namespace CheckAgent

open CheckAgent.Number

theorem reaches_binary64 {k : Int} (low : -1074 ≤ k) (high : k < 971) : binary64.Reaches k :=
  ⟨by decide, low, high⟩

namespace Span

variable {b : Binary} {x : ℚ} {s : Span}

theorem exists_ofBinary {n : Nat} (is : b.value? = some x) (pos : 0 ≤ x) (le : x ≤ n)
    (small : n < 2 ^ 64) : ∃ d, ofBinary b = .ok d ∧ d.nanos ≤ n * 1000000000 := by
  obtain ⟨s, m, e, rfl, rfl⟩ := Binary.exists_finite is
  have unit := two_zpow_pos e
  have unsigned : ¬ (s = true ∧ m ≠ 0) := by
    rintro ⟨rfl, some_bit⟩
    have : (0 : ℚ) < m * 2 ^ e := mul_pos (by exact_mod_cast Nat.pos_of_ne_zero some_bit) unit
    simp at pos
    linarith
  have size : (m : ℚ) * 2 ^ e ≤ n := by
    cases s with
    | false => simpa using le
    | true =>
      obtain rfl : m = 0 := by simpa using unsigned
      simp
  have nearest := nearest_roundHalfEven ((Binary.ratio m e).1 * 1000000000) (ratio_pos m e)
  have nanos := nearest.le_of_le (n := n * 1000000000) <| by
    push_cast
    rw [mul_div_right_comm, div_ratio]
    linarith
  have fits := Nat.lt_of_le_of_lt nanos (Nat.mul_lt_mul_of_pos_right small (by decide))
  simp only [ofBinary, if_neg unsigned]
  exact ⟨_, if_pos fits, nanos⟩

theorem isNegative_toBinary (s : Span) : s.toBinary.isNegative = false :=
  Binary.isNegative_add (Format.isNegative_round ..)
    (Binary.isNegative_div (Format.isNegative_round ..) (Format.isNegative_round ..))

theorem value?_billion : (binary64.ofNat 1000000000).value? = some 1000000000 := by
  have whole : binary64.ofNat 1000000000 = .finite false (1000000000 * 2 ^ 23) (-23) := by decide
  rw [whole, Binary.value?]
  norm_num

/-- A span in seconds is no more than twice as large as its bound. -/
theorem within_toBinary {k : Nat} (some_bit : 0 < k) (small : k ≤ 64)
    (le : s.nanos ≤ 2 ^ k * 1000000000) : s.toBinary.Within (k + 1) := by
  have seconds : s.seconds ≤ 2 ^ k := Nat.div_le_of_le_mul (by omega)
  have nanos : s.nanos % 1000000000 ≤ 2 ^ 30 := by
    have := Nat.mod_lt s.nanos (by decide : 0 < 1000000000)
    omega
  have whole : (binary64.ofNat s.seconds).Within k :=
    Binary.within_ofNat (reaches_binary64 (by omega) (by omega)) seconds
  have part : (binary64.ofNat (s.nanos % 1000000000)).Within (30 : Nat) :=
    Binary.within_ofNat (reaches_binary64 (by decide) (by decide)) nanos
  have quotient := Binary.within_div (k := 29) (reaches_binary64 (by decide) (by decide)) part
    value?_billion (by norm_num)
  exact Binary.within_add (reaches_binary64 (by omega) (by omega)) whole
    (quotient.mono (by omega))

end Span

namespace Policy

/-- What a policy is like whose delays can be computed, and moved by any offset. -/
structure Moderate (p : Policy) : Prop where
  factor : p.multiplier.isNegative = false
  cap : p.maxInterval.nanos ≤ 2 ^ 60 * 1000000000
  jitter : p.jitter.Within 0

variable {p : Policy}

theorem isNegative_growth (factor : p.multiplier.isNegative = false) (n : Nat) :
    (p.growth n).isNegative = false := by
  unfold growth
  split
  · exact Binary.isNegative_pow n factor
  · exact Binary.isNegative_div (Format.isNegative_round ..) (Binary.isNegative_pow _ factor)

/-- The cap stands in for a delay that is too large, and for one that is no number. -/
theorem exists_baseDelay (moderate : p.Moderate) (n : Nat) :
    ∃ d, p.baseDelay n = .ok d ∧ d.nanos ≤ 2 ^ 61 * 1000000000 := by
  have uncut := Binary.isNegative_mul (f := binary64) (Span.isNegative_toBinary p.interval)
    (isNegative_growth moderate.factor n)
  obtain ⟨x, is, pos, le⟩ := Binary.value?_minNum uncut (Span.isNegative_toBinary p.maxInterval)
    (Span.within_toBinary (by decide) (by decide) moderate.cap)
  exact Span.exists_ofBinary is pos (by exact_mod_cast le) (by decide)

theorem exists_move {d : Span} (jitter : p.jitter.Within 0) (le : d.nanos ≤ 2 ^ 61 * 1000000000)
    (offset : Binary) : ∃ d', p.move d (some offset) = .ok d' := by
  have delay : d.toBinary.Within 62 := Span.within_toBinary (by decide) (by decide) le
  have spread : (p.spread d).Within 62 :=
    Binary.within_mul (reaches_binary64 (by decide) (by decide)) delay jitter
  have moved : d.toBinary.add binary64 (offset.clamp (p.spread d).neg (p.spread d)) = .nan ∨
      (d.toBinary.add binary64 (offset.clamp (p.spread d).neg (p.spread d))).Within 63 := by
    cases number : offset.isNan with
    | false =>
      exact .inr (Binary.within_add (reaches_binary64 (by decide) (by decide)) delay
        (Binary.within_clamp (Binary.within_neg.mpr spread) spread number))
    | true =>
      obtain rfl := Binary.eq_nan_of_isNan number
      rw [Binary.clamp_nan, Binary.add_nan]
      exact .inl rfl
  obtain ⟨x, is, pos, le⟩ := Binary.value?_maxNum (f := binary64) moved
  obtain ⟨d', converts, -⟩ :=
    Span.exists_ofBinary (n := 2 ^ 63) is pos (by exact_mod_cast le) (by decide)
  unfold move
  dsimp only
  split
  · exact ⟨d, rfl⟩
  · exact ⟨d', converts⟩

/-- **A moderate policy has every delay.** -/
theorem drawn_of_moderate (moderate : p.Moderate) (n : Nat) (offset : Binary) :
    ∃ d, p.drawn n (some offset) = .ok d := by
  obtain ⟨d, base, le⟩ := exists_baseDelay moderate n
  rw [drawn, base]
  exact exists_move moderate.jitter le offset

theorem next_cases (p : Policy) (n : Nat) (elapsed : Span) : p.next n elapsed = .exhausted ∨
    p.next n elapsed = match p.baseDelay n with
      | .ok d => .delay d
      | .error why => .fault why := by
  unfold next
  split
  · exact .inl rfl
  · split
    · exact .inl rfl
    · exact .inr rfl

theorem moderate_doubling (interval : Span) (maxRetries : Nat) :
    (doubling interval maxRetries).Moderate := by
  refine ⟨binary64.isNegative_round false 2 1, (by decide : 300 * 1000000000 ≤ _), ?_⟩
  have twentieth : defaultJitter = .finite false 7205759403792794 (-57) := by decide
  rw [doubling, twentieth, Binary.Within]
  norm_num

theorem moderate_withJitter {jitter : Binary} (moderate : p.Moderate)
    (number : jitter.isNan = false) : (p.withJitter jitter).Moderate where
  factor := moderate.factor
  cap := moderate.cap
  jitter := by
    have zero : (binary64.zero false).Within 0 := by simp [Format.zero, Binary.Within]
    have one := Binary.within_ofNat (f := binary64) (n := 1) (k := 0)
      (reaches_binary64 (by decide) (by decide)) (by decide)
    exact Binary.within_clamp zero one number

end Policy

namespace Retryer

variable {ε α : Type} {r : Retryer} {chance : Nat → Chance} {why : SpanFault}

/-- All delays of a retryer can be computed, and moved by the offsets that there are for them. -/
def Computes (r : Retryer) (chance : Nat → Chance) : Prop :=
  ∀ i < r.limit, ∃ d, r.policy.drawn i (chance i).offset = .ok d

theorem computes_of_moderate (moderate : r.policy.Moderate)
    (drawn : ∀ i, (chance i).offset.isSome = true) : r.Computes chance := by
  intro i _
  obtain ⟨offset, eq⟩ := Option.isSome_iff_exists.mp (drawn i)
  rw [eq]
  exact Policy.drawn_of_moderate moderate i offset

/-- **Retryers that double their delays have all of them**, from any interval on. -/
theorem computes_doubling (retries : Nat) (interval : Span)
    (drawn : ∀ i, (chance i).offset.isSome = true) : (doubling retries interval).Computes chance :=
  computes_of_moderate (Policy.moderate_doubling interval retries) drawn

/-- So they do with any spread, and any ceiling of their own. -/
theorem computes_withJitter (interval : Span) (maxRetries ceiling : Nat) {jitter : Binary}
    (number : jitter.isNan = false) (drawn : ∀ i, (chance i).offset.isSome = true) :
    Computes ⟨(Policy.doubling interval maxRetries).withJitter jitter, ceiling⟩ chance :=
  computes_of_moderate
    (Policy.moderate_withJitter (Policy.moderate_doubling interval maxRetries) number) drawn

/-! ## Operations whose delays can be computed -/

variable {clock : Span → Nat} {kind : ε → FailureKind} {attempt : Nat → Nat × Except ε α}
  {cancelAt : Option Nat} {i : Nat}

theorem verdict_cases (r : Retryer) (i : Nat) (kind : FailureKind) (chance : Chance) :
    r.verdict i kind chance = .giveUp ∨
      r.verdict i kind chance = match r.policy.drawn i chance.offset with
        | .ok d => .retryAfter d
        | .error why => .fault why := by
  unfold verdict
  cases kind with
  | permanent => exact .inl rfl
  | transient =>
    dsimp only
    split
    · exact .inl rfl
    · rcases r.policy.next_cases i chance.elapsed with next | next
      · rw [next]
        exact .inl rfl
      · rw [next, Policy.drawn]
        cases r.policy.baseDelay i <;> exact .inr rfl

theorem verdict_ne_fault (computes : r.Computes chance) (upTo : i ≤ r.limit)
    (kind : FailureKind) : r.verdict i kind (chance i) ≠ .fault why := by
  rcases upTo.eq_or_lt with rfl | within
  · rw [verdict_limit]
    nofun
  · obtain ⟨d, drawn⟩ := computes i within
    rcases r.verdict_cases i kind (chance i) with gives_up | delays
    · rw [gives_up]
      nofun
    · rw [delays, drawn]
      nofun

/-- Such an operation ends with the outcome of an attempt. -/
theorem ending_ne_fault (computes : r.Computes chance) :
    (r.run clock kind attempt chance cancelAt).ending ≠ .fault why := by
  intro fault
  have runs := r.runs_run clock kind attempt chance cancelAt
  obtain ⟨m, length, ends⟩ := runs.ends
  have upTo := runs.length_le (Nat.zero_le _)
  rw [fault] at ends
  cases ends with
  | fault _ broken => exact verdict_ne_fault computes (by omega) _ broken

end Retryer

end CheckAgent
