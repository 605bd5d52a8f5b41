import CheckAgent.Retry.Retryer

/-!
# The course of a retried operation

An operation goes on while its attempts fail and the retryer gives them a delay, and **the last
attempt** decides how it ends: with its value, with its error, because the retryer gives up or the
delay is cut short by a cancellation, or without either if the delay cannot be computed. `Runs` says
so, and `runs_run` shows that every operation takes such a course. `Runs.ends` and `Runs.inTime`
draw from it what the last attempt was and that time does not go backwards.
-/

namespace CheckAgent

variable {ε α : Type}

/-- The times of a course that begins at `t` do not decrease. -/
structure Course.InTime (c : Course ε α) (t : Nat) : Prop where
  begins : ∀ s ∈ c.starts, t ≤ s
  ordered : c.starts.Pairwise (· ≤ ·)
  ends : ∀ s ∈ c.starts, s ≤ c.ended

namespace Retryer

variable (r : Retryer) (clock : Span → Nat) (kind : ε → FailureKind)
  (attempt : Nat → Nat × Except ε α) (chance : Nat → Chance) (cancelAt : Option Nat)

/-- How an operation ends whose last attempt is number `m`. -/
inductive Ends (m : Nat) : Ending ε α → Prop where
  | done {a : α} (succeeds : (attempt m).2 = .ok a) : Ends m (.done a)
  | failed {e : ε} (fails : (attempt m).2 = .error e)
      (final : r.verdict m (kind e) (chance m) = .giveUp) : Ends m (.failed e)
  | cut {e : ε} {d : Span} (fails : (attempt m).2 = .error e)
      (delay : r.verdict m (kind e) (chance m) = .retryAfter d)
      (cancelled : cancelAt.isSome = true) : Ends m (.failed e)
  | fault {e : ε} {why : SpanFault} (fails : (attempt m).2 = .error e)
      (delay : r.verdict m (kind e) (chance m) = .fault why) : Ends m (.fault why)

/-- The courses of an operation from attempt `i` at time `t` on. -/
inductive Runs : Nat → Nat → Course ε α → Prop where
  | last {i t ended : Nat} {ending : Ending ε α}
      (ends : r.Ends kind attempt chance cancelAt i ending)
      (after : t + (attempt i).1 ≤ ended) : Runs i t ⟨[t], ended, ending⟩
  | again {i t : Nat} {e : ε} {d : Span} {c : Course ε α} (fails : (attempt i).2 = .error e)
      (delay : r.verdict i (kind e) (chance i) = .retryAfter d)
      (rest : Runs (i + 1) (t + (attempt i).1 + clock d) c) :
      Runs i t ⟨t :: c.starts, c.ended, c.ending⟩

/-- No retry follows as many attempts as there may be retries. -/
theorem verdict_limit (kind : FailureKind) (chance : Chance) :
    r.verdict r.limit kind chance = .giveUp := by
  cases kind with
  | permanent => rfl
  | transient =>
    unfold verdict
    by_cases h : r.limit = r.ceiling
    · simp [h]
    · have spent : r.policy.maxRetries ≤ r.limit := by
        unfold limit at h ⊢
        omega
      simp [h, Policy.next, spent]

theorem runs_runFrom (fuel i t : Nat) (enough : i + fuel = r.limit) :
    r.Runs clock kind attempt chance cancelAt i t
      (r.runFrom clock kind attempt chance cancelAt fuel i t) := by
  fun_induction runFrom r clock kind attempt chance cancelAt fuel i t with
  | case1 _ _ _ _ _ succeeds => exact .last (.done succeeds) (Nat.le_refl _)
  | case2 _ _ _ _ _ fails final => exact .last (.failed fails final) (Nat.le_refl _)
  | case3 _ _ _ _ _ fails _ delay => exact .last (.fault fails delay) (Nat.le_refl _)
  | case4 _ _ _ _ _ fails _ delay cancelled =>
    have some : cancelAt.isSome = true := by
      cases cancelAt with
      | none => cases cancelled
      | some c => rfl
    exact .last (.cut fails delay some) (Nat.le_max_left ..)
  | case5 i _ _ e fails d delay =>
    -- the fuel lasts for as many retries as there may be
    obtain rfl : i = r.limit := enough
    rw [verdict_limit] at delay
    cases delay
  | case6 _ _ _ _ fails _ delay _ _ _ rest => exact .again fails delay (rest (by omega))

theorem runs_run :
    r.Runs clock kind attempt chance cancelAt 0 0 (r.run clock kind attempt chance cancelAt) :=
  r.runs_runFrom clock kind attempt chance cancelAt r.limit 0 0 (Nat.zero_add _)

variable {r clock kind attempt chance cancelAt} {c : Course ε α} {i t : Nat}

/-- The last attempt of a course, which decides how it ends. -/
theorem Runs.ends (runs : r.Runs clock kind attempt chance cancelAt i t c) :
    ∃ m, c.starts.length + i = m + 1 ∧ r.Ends kind attempt chance cancelAt m c.ending := by
  induction runs with
  | last ends _ => exact ⟨_, Nat.add_comm .., ends⟩
  | again _ _ _ ih =>
    obtain ⟨m, length, ends⟩ := ih
    refine ⟨m, ?_, ends⟩
    rw [List.length_cons, ← length]
    omega

theorem Runs.length_le (runs : r.Runs clock kind attempt chance cancelAt i t c)
    (upTo : i ≤ r.limit) : c.starts.length + i ≤ r.limit + 1 := by
  induction runs with
  | last =>
    rw [List.length_singleton, Nat.add_comm]
    exact Nat.add_le_add_right upTo 1
  | @again i _ _ _ _ _ delay _ ih =>
    have more : i ≠ r.limit := by
      rintro rfl
      rw [verdict_limit] at delay
      cases delay
    have := ih (by omega)
    rw [List.length_cons]
    omega

theorem Runs.inTime (runs : r.Runs clock kind attempt chance cancelAt i t c) : c.InTime t := by
  induction runs with
  | last _ after => exact ⟨by simp, List.pairwise_singleton .., by simp; omega⟩
  | @again i t e d c _ _ rest ih =>
    have begins (s : Nat) (hs : s ∈ c.starts) : t ≤ s := by
      have := ih.begins s hs
      omega
    refine ⟨?_, List.pairwise_cons.mpr ⟨begins, ih.ordered⟩, ?_⟩
    · simpa using begins
    · -- a course has an attempt, which begins at or behind `t` and ends before the course does
      obtain ⟨s, hs⟩ : ∃ s, s ∈ c.starts := by cases rest <;> exact ⟨_, List.mem_cons_self ..⟩
      simp only [List.mem_cons, forall_eq_or_imp]
      exact ⟨Nat.le_trans (begins s hs) (ih.ends s hs), ih.ends⟩

end Retryer

end CheckAgent
