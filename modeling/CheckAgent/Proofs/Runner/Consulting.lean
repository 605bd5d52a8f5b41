import CheckAgent.Proofs.AbortList.Lookups
import CheckAgent.Proofs.Runner.Record

/-!
# How the runner consults the list of aborted checks

The calls of a runner look up their checks in one list, each for itself. **Their lookups** are those
of a history of lookups: it has the same list, and every call that looks up its check is where that
history has it.

**Main result** (`lookups_of_runner`). There is such a history for every history of a runner, so
what holds of all lookups holds of the calls.
-/

namespace CheckAgent

open Runner

/-- Lookups are those of the calls of a runner. -/
structure Lookups.Of (s : Lookups) (r : Runner) : Prop where
  list : r.abortList = some s.list
  lookups : ∀ n job l, r.stage? n = some (.lookingUp job l) →
    s.askers.get? n = some ⟨job.checkId, l⟩
  fresh : ∀ n, r.stage? n = none ∨ r.stage? n = some .received → s.askers.get? n = none

namespace Lookups.Of

variable {s : Lookups} {r r' : Runner} {n : Nat} {m : Message} {stage : Stage} {a : Answer}
  {t : Turned}

theorem beside (of : s.Of r) (list : r'.abortList = r.abortList)
    (own : ∀ job l, r'.stage? n ≠ some (.lookingUp job l))
    (late : r'.stage? n = some .received → r.stage? n = none) (known : r'.stage? n ≠ none)
    (others : ∀ k, k ≠ n → r'.stage? k = r.stage? k) : s.Of r' := by
  refine ⟨list.trans of.list, ?_, ?_⟩
  · intro k job l stage
    by_cases same : k = n
    · exact absurd (same ▸ stage) (own job l)
    · exact of.lookups k job l ((others k same).symm.trans stage)
  · intro k early
    by_cases same : k = n
    · subst same
      exact of.fresh k (.inl (late (early.resolve_left known)))
    · exact of.fresh k (others k same ▸ early)

theorem move (of : s.Of r) {job : Job} {l : Lookup} {list' : AbortList}
    (list : r'.abortList = some list') (own : r'.stage? n = some (.lookingUp job l))
    (others : ∀ k, k ≠ n → r'.stage? k = r.stage? k) :
    Lookups.Of ⟨list', s.askers.set n ⟨job.checkId, l⟩⟩ r' := by
  refine ⟨list, ?_, ?_⟩
  · intro k job' l' stage
    dsimp only
    rw [Table.get?_set]
    by_cases same : k = n
    · rw [same, own] at stage
      cases stage
      rw [if_pos same]
    · rw [if_neg same]
      exact of.lookups k job' l' ((others k same).symm.trans stage)
  · intro k early
    dsimp only
    rw [Table.get?_set]
    by_cases same : k = n
    · rw [same, own] at early
      rcases early with early | early <;> cases early
    · rw [if_neg same]
      exact of.fresh k (others k same ▸ early)

/-- **A step of a call** is one of its lookup, or has nothing to do with it. -/
theorem turn (of : s.Of r) (at_ : r.stage? n = some stage) (turn : Turn r n m stage a t) :
    s.Of (r.turned n t) ∨ ∃ s' out, s.Step s' out ∧ s'.Of (r.turned n t) := by
  have own : (r.turned n t).stage? n = some t.stage := Moment.stage?_ofTurn (a := a) at_
  have others (k : Nat) (other : k ≠ n) : (r.turned n t).stage? k = r.stage? k := by
    simp [turned, stage?, Table.get?_modify, other]
  cases turn with
  | consult holds asked =>
    have fresh := of.fresh n (.inr at_)
    exact .inr ⟨_, [], .begin fresh, of.move of.list own others⟩
  | @look job list list' l l' a asked turn =>
    obtain rfl : list = s.list := Option.some.inj (asked.symm.trans of.list)
    have goes : ∃ deeds, Lookups.Goes s.list job.checkId l deeds l' list' := by
      cases turn
      · exact ⟨_, .look⟩
      · exact ⟨_, .answer⟩
      · exact ⟨_, .rest⟩
      · exact ⟨_, .store⟩
    obtain ⟨deeds, goes⟩ := goes
    exact .inr ⟨_, _, .go (of.lookups n job l at_) goes, of.move rfl own others⟩
  | _ =>
    refine .inl (of.beside (n := n) rfl ?_ ?_ ?_ others) <;> rw [own] <;> simp [quiet, saying]

theorem step (of : s.Of r) {e : RunnerEvent} {out : List Effect}
    (step : r.step e = some (r', out)) :
    s.Of r' ∨ ∃ s' out, s.Step s' out ∧ s'.Of r' := by
  by_cases goes : ∃ n a, e = .advance n a
  · obtain ⟨n, a, rfl⟩ := goes
    obtain ⟨c, t, found, turn, rfl, -⟩ := turn_of_advance step
    exact of.turn (by simp [stage?, found]) turn
  · have list := abortList_of_step step fun n a same => goes ⟨n, a, same⟩
    refine .inl ?_
    cases Runner.step_of_eq step with
    | turn => exact absurd ⟨_, _, rfl⟩ goes
    | @deliver n m fresh stages =>
      have own := stages n
      rw [if_pos rfl] at own
      have others (k : Nat) (other : k ≠ n) : r'.stage? k = r.stage? k := by
        rw [stages, if_neg other]
      exact of.beside list (by simp [own]) (fun _ => fresh) (by simp [own]) others
    | beside _ _ stages =>
      refine ⟨list.trans of.list, ?_, ?_⟩
      · intro n job l stage
        exact of.lookups n job l ((stages n).symm.trans stage)
      · intro n early
        exact of.fresh n (stages n ▸ early)

end Lookups.Of

namespace History

/-- **The lookups of a runner** are lookups as any others. -/
theorem lookups_of_runner (timeLimit : Span) (r : Retryer) (events : List RunnerEvent) :
    ∃ asks, (r.lookups asks).now.Of ((start timeLimit (some ⟨r, []⟩)).history events).now := by
  refine induct (P := fun h => ∃ asks, (r.lookups asks).now.Of h.now) ⟨[], ?_⟩ ?_ events
  · exact ⟨rfl, by simp [start, stage?], by simp [Retryer.lookups]⟩
  · rintro h e r' out ⟨asks, of⟩ step
    rcases of.step step with same | ⟨s', deeds, next, of'⟩
    · exact ⟨asks, same⟩
    · obtain ⟨ask, happens⟩ := Lookups.exists_step next
      refine ⟨asks ++ [ask], ?_⟩
      rw [LookupHistory.lookups_snoc, LookupHistory.next, happens]
      exact of'

end History

end CheckAgent
