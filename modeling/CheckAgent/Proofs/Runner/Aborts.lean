import CheckAgent.Proofs.Runner.Delivery
import CheckAgent.Proofs.Runner.Output

/-!
# Whom an abort reaches

An abort names a check and is meant for **the run that is registered for it** at that moment. A run
is to stop if an abort has reached its call, or if all runs are to stop (`Runner.isFired`).

**Main result** (`aborts_reach_their_run`). A run is to stop exactly if an abort of its check came
while its own call held the check, or if all runs were told to stop at some time. A call holds its
check from the moment at which it announces the run, so an abort that comes before the run begins
counts. An abort of a check that is not registered changes nothing, and one that is accepted changes
nothing but the run of the call that holds the check: other checks and the earlier and later runs of
the same check go on.

The mark that an abort leaves on a call is followed over a history (`isMarked_step`): no other event
sets or removes it.
-/

namespace CheckAgent

open Runner CheckAgent.Text

/-- Whether an abort has reached a call. -/
def Runner.isMarked (r : Runner) (n : Nat) : Bool := (r.calls.get? n).any (·.aborted)

/-- An abort of check `c` comes while call `n` holds the check. -/
def Moment.Aborts (m : Moment) (n : Nat) (c : String) : Prop :=
  m.event = .abort c ∧ m.before.owner? c = some n

namespace History

/-- Which runs are to stop. -/
structure ReachedByAborts (h : History) : Prop where
  /-- A run is to stop exactly if an abort of its check came while its call held the check, or if
  all runs were told to stop. A call begins one run. -/
  fired : ∀ n, ∀ run ∈ (h.output n).begun, (h.output n).begun = [run] ∧
    ∃ call, h.now.calls.get? n = some call ∧
      (h.now.isFired call = true ↔
        (∃ m ∈ h.moments, m.Aborts n run.checkId) ∨ ∃ m ∈ h.moments, m.event = .stopAll)
  /-- A call holds its check before its run begins, from the announcement on. -/
  announced : ∀ n job, h.now.stage? n = some (.announcing job) →
    h.now.owner? job.checkId = some n
  /-- An abort is accepted exactly if the check is registered. -/
  accepted : ∀ c, (∃ r, h.now.abort c = .ok r) ↔ ∃ n, h.now.owner? c = some n
  /-- Otherwise it says so, and changes nothing. -/
  refused : ∀ c, h.now.owner? c = none → h.now.abort c = .error (.notRunning c) ∧
    h.now.step (.abort c) = some (h.now, [])
  /-- An abort that is accepted marks the call that holds the check. -/
  hits : ∀ c n r, h.now.abort c = .ok r → h.now.owner? c = some n → ∃ call,
    h.now.calls.get? n = some call ∧ h.now.step (.abort c) = some (r, []) ∧
      r = { h.now with calls := h.now.calls.set n { call with aborted := true } }
  /-- Every other call, for another check or for the same, is left alone. -/
  spares : ∀ c k r call, h.now.abort c = .ok r → h.now.owner? c ≠ some k →
    h.now.calls.get? k = some call →
      r.calls.get? k = some call ∧ r.isFired call = h.now.isFired call

end History

/-! ## Marks -/

namespace Runner

variable {r r' : Runner} {n : Nat} {e : RunnerEvent} {out : List Effect} {c : String}

theorem isMarked_eq (r : Runner) (n : Nat) :
    r.isMarked n = ((r.calls.get? n).map (·.aborted)).any id := by
  rw [isMarked, Option.any_map]
  rfl

theorem isMarked_of_other (step : r.step e = some (r', out)) (other : ∀ c, e ≠ .abort c) :
    r'.isMarked n = r.isMarked n := by
  cases happens_of_step step with
  | @deliver k m fresh =>
    unfold isMarked deliver
    rw [Table.get?_set]
    by_cases same : n = k
    · rw [if_pos same, same, fresh]
      rfl
    · rw [if_neg same]
  | @turn k a call t =>
    have kept : ((r.turned k t).calls.get? n).map (·.aborted) =
        (r.calls.get? n).map (·.aborted) := Table.map_get?_modify r.calls k n fun _ => rfl
    rw [isMarked_eq, kept, isMarked_eq]
  | abort | lapse => exact absurd rfl (other _)
  | stopAll | take | refuse | forward | answer => rfl

theorem abort_of_owner (hr : r.Consistent) (own : r.owner? c = some n) : ∃ call,
    r.calls.get? n = some call ∧
      r.abort c = .ok { r with calls := r.calls.set n { call with aborted := true } } := by
  obtain ⟨g, at_c, rfl⟩ := Option.map_eq_some_iff.mp own
  obtain ⟨s, -, stage, -⟩ := hr.owner.mp own
  obtain ⟨call, at_n, -⟩ := Option.map_eq_some_iff.mp stage
  refine ⟨call, at_n, ?_⟩
  simp [abort, at_c, Table.modify, at_n]

theorem abort_of_free (free : r.owner? c = none) : r.abort c = .error (.notRunning c) := by
  have absent : r.registry.get? c = none := by simpa [owner?] using free
  simp [abort, absent]

/-- **The marks after an event.** An abort marks the call that holds the check, and nothing else
marks a call or removes a mark. -/
theorem isMarked_step (hr : r.Consistent) (step : r.step e = some (r', out)) :
    r'.isMarked n = true ↔ r.isMarked n = true ∨ ∃ c, (Moment.mk r e out r').Aborts n c := by
  by_cases abort : ∃ c, e = .abort c
  · obtain ⟨c, rfl⟩ := abort
    replace step : some ((r.abort c).toOption.getD r, []) = some (r', out) := step
    cases own : r.owner? c with
    | none =>
      rw [abort_of_free own] at step
      cases step
      constructor
      · exact .inl
      · intro marked
        rcases marked with marked | ⟨_, ⟨⟩, mine⟩
        · exact marked
        · rw [own] at mine
          cases mine
    | some k =>
      obtain ⟨call, at_k, eq⟩ := abort_of_owner hr own
      rw [eq] at step
      cases step
      show ((r.calls.set k { call with aborted := true }).get? n).any (·.aborted) = true ↔ _
      rw [Table.get?_set]
      by_cases same : n = k
      · rw [if_pos same]
        exact ⟨fun _ => .inr ⟨c, rfl, same ▸ own⟩, fun _ => rfl⟩
      · rw [if_neg same]
        constructor
        · exact .inl
        · intro marked
          rcases marked with marked | ⟨c', event, mine⟩
          · exact marked
          · cases event
            exact absurd (Option.some.inj (mine.symm.trans own)) same
  · rw [isMarked_of_other step fun c same => abort ⟨c, same⟩]
    constructor
    · exact .inl
    · intro marked
      rcases marked with marked | ⟨c, event, -⟩
      · exact marked
      · exact absurd ⟨c, event⟩ abort

/-- Nothing but the order to stop all runs stops all runs, and it is never taken back. -/
theorem stopping_step (step : r.step e = some (r', out)) :
    r'.stopping = true ↔ r.stopping = true ∨ e = .stopAll := by
  have same (keeps : r'.stopping = r.stopping) (other : e ≠ .stopAll) :
      r'.stopping = true ↔ r.stopping = true ∨ e = .stopAll := by
    rw [keeps]
    exact ⟨.inl, fun either => either.resolve_right other⟩
  cases happens_of_step step with
  | stopAll => exact ⟨fun _ => .inr rfl, fun _ => rfl⟩
  | deliver | turn | abort | lapse | take | refuse | forward | answer => exact same rfl (by simp)

end Runner

theorem OutputCourse.begun_eq {stage : Option Stage} {record : OutputRecord} {run : RunSpec}
    (course : OutputCourse stage record) (began : run ∈ record.begun) : record.begun = [run] := by
  cases course with
  | absent | unrun | refused => cases began
  | running | ended | uploading | concluded => rw [List.mem_singleton.mp began]

/-! ## Over a history -/

namespace History

variable {h : History} {n : Nat} {e : RunnerEvent} {out : List Effect} {r' : Runner} {c : String}

theorem exists_mem_after {P : Moment → Prop} : (∃ m ∈ (h.after e out r').moments, P m) ↔
    (∃ m ∈ h.moments, P m) ∨ P ⟨h.now, e, out, r'⟩ := by
  constructor
  · intro found
    obtain ⟨m, mem, holds⟩ := found
    rcases mem_after.mp mem with earlier | rfl
    · exact .inl ⟨m, earlier, holds⟩
    · exact .inr holds
  · intro found
    rcases found with ⟨m, mem, holds⟩ | holds
    · exact ⟨m, mem_after_of_mem mem, holds⟩
    · exact ⟨_, last_mem_after, holds⟩

theorem started_of_begun {run : RunSpec} (began : run ∈ (h.output n).begun) :
    ∃ m ∈ h.moments, .started n run ∈ m.effects := by
  obtain ⟨effect, mem, begun⟩ := List.mem_filterMap.mp began
  obtain ⟨m, at_m, mem⟩ := List.mem_flatMap.mp mem
  refine ⟨m, at_m, ?_⟩
  cases effect with
  | started k run' =>
    obtain ⟨rfl, same⟩ := Option.ite_none_right_eq_some.mp begun
    cases same
    exact mem
  | _ => cases begun

variable (timeLimit : Span) (abortList : Option AbortList) (events : List RunnerEvent)

/-- A call is marked exactly if an abort came while it held the check. -/
theorem isMarked_iff (n : Nat) :
    ((Runner.start timeLimit abortList).history events).now.isMarked n = true ↔
      ∃ m ∈ ((Runner.start timeLimit abortList).history events).moments, ∃ c, m.Aborts n c := by
  refine induct_consistent timeLimit abortList events
    (P := fun h => h.now.isMarked n = true ↔ ∃ m ∈ h.moments, ∃ c, m.Aborts n c) ?_ ?_
  · simp [Runner.start, isMarked]
  · intro h e r' out hr ih step
    rw [exists_mem_after, ← ih]
    exact isMarked_step hr step

theorem stopping_iff : ((Runner.start timeLimit abortList).history events).now.stopping = true ↔
    ∃ m ∈ ((Runner.start timeLimit abortList).history events).moments, m.event = .stopAll := by
  refine induct (P := fun h => h.now.stopping = true ↔ ∃ m ∈ h.moments, m.event = .stopAll)
    ?_ ?_ events
  · simp [Runner.start]
  · intro h e r' out ih step
    rw [exists_mem_after, ← ih]
    exact stopping_step step

theorem checkId?_of_moment {m : Moment}
    (mem : m ∈ ((Runner.start timeLimit abortList).history events).moments)
    (check : m.before.checkId? n = some c) :
    ((Runner.start timeLimit abortList).history events).now.checkId? n = some c := by
  refine induct (P := fun h => ∀ m ∈ h.moments, m.before.checkId? n = some c →
    h.now.checkId? n = some c) (fun _ mem => absurd mem List.not_mem_nil) ?_ events m mem check
  intro h e r' out ih step m mem check
  rcases mem_after.mp mem with earlier | rfl
  · exact checkId?_step (step_of_eq step) (ih m earlier check)
  · exact checkId?_step (step_of_eq step) check

theorem checkId?_of_begun {run : RunSpec}
    (began : run ∈ (((Runner.start timeLimit abortList).history events).output n).begun) :
    ((Runner.start timeLimit abortList).history events).now.checkId? n = some run.checkId := by
  obtain ⟨m, mem, started⟩ := started_of_begun began
  refine checkId?_of_moment timeLimit abortList events mem ?_
  obtain ⟨hr, step⟩ := moment_sound timeLimit abortList events mem
  obtain ⟨a, event⟩ := call?_of_step step started rfl
  rw [event] at step
  obtain ⟨call, t, at_n, turn, -, effects⟩ := turn_of_advance step
  have stage : m.before.stage? n = some call.stage := by simp [stage?, at_n]
  rw [effects] at started
  generalize call.stage = s at turn stage
  cases turn with
  | begin =>
    cases List.mem_singleton.mp started
    exact hr.check stage rfl
  | _ => simp [quiet, saying] at started

theorem aborts_of_begun {run : RunSpec}
    (began : run ∈ (((Runner.start timeLimit abortList).history events).output n).begun)
    {m : Moment} (mem : m ∈ ((Runner.start timeLimit abortList).history events).moments)
    (aborts : m.Aborts n c) : c = run.checkId := by
  have mine := (moment_sound timeLimit abortList events mem).consistent.checkId?_of_owner? aborts.2
  have now := checkId?_of_moment timeLimit abortList events mem mine
  rw [checkId?_of_begun timeLimit abortList events began] at now
  exact (Option.some.inj now).symm

/-- **When a run is to stop.** -/
theorem isFired_iff {run : RunSpec}
    (began : run ∈ (((Runner.start timeLimit abortList).history events).output n).begun) :
    ∃ call, ((Runner.start timeLimit abortList).history events).now.calls.get? n = some call ∧
      (((Runner.start timeLimit abortList).history events).now.isFired call = true ↔
        (∃ m ∈ ((Runner.start timeLimit abortList).history events).moments,
          m.Aborts n run.checkId) ∨
        ∃ m ∈ ((Runner.start timeLimit abortList).history events).moments, m.event = .stopAll) := by
  have check := checkId?_of_begun timeLimit abortList events began
  obtain ⟨m, message, -⟩ := Option.bind_eq_some_iff.mp check
  obtain ⟨call, at_n, -⟩ := Option.map_eq_some_iff.mp message
  refine ⟨call, at_n, ?_⟩
  have mark :
      ((Runner.start timeLimit abortList).history events).now.isMarked n = call.aborted := by
    simp [isMarked, at_n]
  rw [isFired, Bool.or_eq_true, stopping_iff, ← mark, isMarked_iff, or_comm]
  refine or_congr (exists_congr fun m => and_congr_right fun mem => ?_) Iff.rfl
  -- the call is for one check, so the abort names the check of the run
  constructor
  · intro found
    obtain ⟨c, aborts⟩ := found
    exact aborts_of_begun timeLimit abortList events began mem aborts ▸ aborts
  · intro aborts
    exact ⟨_, aborts⟩

/-- **Whom an abort reaches.** -/
theorem aborts_reach_their_run :
    ((Runner.start timeLimit abortList).history events).ReachedByAborts := by
  have hr := consistent timeLimit abortList events
  constructor
  case fired =>
    intro n run began
    exact ⟨(output_course timeLimit abortList events n).begun_eq began,
      isFired_iff timeLimit abortList events began⟩
  case announced =>
    intro n job stage
    exact hr.owner_of_registered stage rfl
  all_goals generalize ((Runner.start timeLimit abortList).history events).now = r at hr
  case accepted =>
    intro c
    cases own : r.owner? c with
    | none => simp [abort_of_free own]
    | some n =>
      obtain ⟨call, -, eq⟩ := abort_of_owner hr own
      simp [eq]
  case refused =>
    intro c free
    refine ⟨abort_of_free free, ?_⟩
    simp [Runner.step, abort_of_free free, Except.toOption]
  case hits =>
    intro c n r' accepted own
    obtain ⟨call, at_n, eq⟩ := abort_of_owner hr own
    rw [eq] at accepted
    cases accepted
    refine ⟨call, at_n, ?_, rfl⟩
    simp [Runner.step, eq, Except.toOption]
  case spares =>
    intro c k r' call accepted other at_k
    cases own : r.owner? c with
    | none =>
      rw [abort_of_free own] at accepted
      cases accepted
    | some n =>
      obtain ⟨call', -, eq⟩ := abort_of_owner hr own
      rw [eq] at accepted
      cases accepted
      have distinct : k ≠ n := fun same => other (same ▸ own)
      refine ⟨?_, rfl⟩
      rw [Table.get?_set, if_neg distinct]
      exact at_k

/-- A run is aborted before it begins. -/
example : (((Runner.start (.ofSeconds 60) none).history [.deliver 0 (.asking "m" "c"),
    .advance 0 .onward, .advance 0 .onward, .abort "c", .advance 0 (.accepted true)]).now.calls.get?
      0).map (·.aborted) = some true := by
  decide +kernel

end History

end CheckAgent
