import CheckAgent.Proofs.Runner.Output

/-!
# The final state of a run

A run that gave output succeeds with **the last final status that its check reported** while the run
was registered, and with `FINISHED` if it reported none. A run that failed is `TIMEOUT` or `ABORTED`
if it was stopped and `FAILED` otherwise, whatever its check has reported (`Conclusion`).

**Main result** (`concludes_with_final_state`). A call that has begun a run sends one final state,
the one that the run calls for, and once that is answered its message is deleted exactly if the
state was accepted. Whether `RUNNING` was accepted has no bearing on any of it.

What the check has reported is gathered from the callbacks of a history; the registry keeps the last
of it for the call that owns the check (`Remembers`). `Dialogue` says what a call has sent and what
was answered, by its stage.
-/

namespace CheckAgent

open Runner CheckAgent.Text

namespace Moment

/-- The final status that the check which call `n` runs reports about itself. -/
def reported? (m : Moment) (n : Nat) : Option Status :=
  match m.event with
  | .report _ state =>
    if m.before.owner? state.checkId = some n ∧ state.status.isFinal = true then some state.status
    else none
  | _ => none

end Moment

namespace History

/-- The final statuses that a check has reported about itself while the run of call `n` was
registered. -/
def reported (h : History) (n : Nat) : List Status := h.moments.filterMap (·.reported? n)

end History

/-- The final state of a run of check `c` that has reported some final statuses, by what the run
returned, with what is uploaded and what is answered to that. -/
inductive Conclusion (c : String) (reported : List Status) :
    Except RunError Bytes → List Bytes → List (Option String) → CheckState → Prop where
  | timeout (check : String) (limit : Span) :
      Conclusion c reported (.error (.timeout check limit)) [] [] (.plain c .timeout)
  | cancelled (check : String) :
      Conclusion c reported (.error (.cancelled check)) [] [] (.plain c .aborted)
  | failed {e : RunError} (unstopped : e.isStop = false) :
      Conclusion c reported (.error e) [] [] (.plain c .failed)
  | silent : Conclusion c reported (.ok []) [] [] (.plain c (reported.getLast?.getD .finished))
  | uploaded {output : Bytes} (some : output ≠ []) (url : Option String) :
      Conclusion c reported (.ok output) [output] [url]
        { CheckState.plain c (reported.getLast?.getD .finished) with raw := url }

namespace History

/-- How a call concludes its run. -/
structure Concludes (h : History) (n : Nat) : Prop where
  /-- The final state is the one that the run calls for, and it is sent once. -/
  final : ∀ run ∈ (h.output n).begun, ∀ state ∈ (h.output n).final, ∃ outcome,
    (h.output n).begun = [run] ∧ (h.output n).returned = [outcome] ∧
      (h.output n).final = [state] ∧
      Conclusion run.checkId (h.reported n) outcome (h.output n).uploaded (h.output n).links state
  /-- When the call is over, both states that it has sent were answered, and its message is deleted
  exactly if the final one was accepted. -/
  disposed : ∀ run ∈ (h.output n).begun, ∀ s, h.now.stage? n = some s → s.isOver = true →
    ∃ state announced concluded, (h.output n).final = [state] ∧
      (h.record n).said = [.plain run.checkId .running, state] ∧
      (h.record n).accepted = [announced, concluded] ∧
      s = .done (if concluded then .delete else .keep)
  /-- Whatever is answered to `RUNNING`, the run begins. -/
  begins : ∀ job, h.now.stage? n = some (.announcing job) → ∃ r, r.stage? n = some (.running job) ∧
    ∀ ok, h.now.step (.advance n (.accepted ok)) =
      some (r, [.started n (.ofJob job h.now.timeLimit)])
  /-- Whatever the run returns, the call has it then. -/
  returns : ∀ job outcome, h.now.stage? n = some (.running job) → ∃ r,
    h.now.step (.advance n (.outcome outcome)) = some (r, []) ∧
      r.stage? n = some (.ended job outcome)
  /-- From there it goes on by itself, to its final state or with its output. -/
  leaves : ∀ job outcome, h.now.stage? n = some (.ended job outcome) → ∃ r s effect,
    h.now.step (.advance n .onward) = some (r, [effect]) ∧ r.stage? n = some s ∧
      ((∃ state, s = .concluding state ∧ effect = .sent n state) ∨
        ∃ status output, s = .uploading job status ∧ outcome = .ok output ∧
          effect = .uploaded n job.checkId job.startTime output)
  /-- With the answer to its output, whatever it is, it goes on to its final state. -/
  links : ∀ job status url, h.now.stage? n = some (.uploading job status) → ∃ r state,
    h.now.step (.advance n (.link url)) = some (r, [.sent n state]) ∧
      r.stage? n = some (.concluding state) ∧ state.raw = url
  /-- With the answer to its final state it ends. -/
  ends : ∀ state ok, h.now.stage? n = some (.concluding state) → ∃ r,
    h.now.step (.advance n (.accepted ok)) = some (r, []) ∧
      r.stage? n = some (.done (if ok then .delete else .keep))

end History

/-! ## What a check has reported -/

section

variable {r : Runner} {n k : Nat} {msg : Message} {s : Stage} {a : Answer} {t : Turned}
  {c : String} {g : Registration}

namespace Runner

theorem Turn.get?_registry_before (turn : Turn r k msg s a t)
    (at_c : t.registry.get? c = some g) (other : g.owner ≠ k) : r.registry.get? c = some g := by
  rcases turn.registry_cases with ⟨reg, -⟩ | ⟨job, -, -, -, reg⟩ | ⟨job, _, -, -, -, reg⟩
  · rw [← reg]
    exact at_c
  · rw [reg, Table.get?_set] at at_c
    split at at_c
    · cases at_c
      exact absurd rfl other
    · exact at_c
  · rw [reg, Table.get?_erase_eq_some] at at_c
    exact at_c.2

/-- **What the registry keeps after a callback.** The check that reports has the final status that
it reports; every other entry is the same. -/
theorem get?_of_report {r' : Runner} {state : CheckState} {out : List Effect}
    (step : r.step (.report k state) = some (r', out)) (at_c : r'.registry.get? c = some g) :
    ∃ g', r.registry.get? c = some g' ∧ g'.owner = g.owner ∧
      g.reported = if c = state.checkId ∧ state.status.isFinal = true then some state.status
        else g'.reported := by
  rw [registry_of_report step, Table.get?_modify] at at_c
  by_cases same : c = state.checkId
  · rw [if_pos same] at at_c
    obtain ⟨g', before, rfl⟩ := Option.map_eq_some_iff.mp at_c
    refine ⟨g', same ▸ before, ?_⟩
    by_cases final : state.status.isFinal = true <;> simp [same, final]
  · rw [if_neg same] at at_c
    exact ⟨g, at_c, rfl, by simp [same]⟩

end Runner

end

namespace History

variable {h : History} {n k : Nat} {e : RunnerEvent} {out : List Effect} {r' : Runner}

theorem reported_after (h : History) (e : RunnerEvent) (out : List Effect) (r' : Runner)
    (n : Nat) : (h.after e out r').reported n =
      h.reported n ++ ((Moment.mk h.now e out r').reported? n).toList := by
  cases reported : (Moment.mk h.now e out r').reported? n <;>
    simp [History.reported, after, reported]

theorem reported_after_of_none (none : (Moment.mk h.now e out r').reported? n = none) :
    (h.after e out r').reported n = h.reported n := by
  rw [reported_after, none]
  exact List.append_nil _

/-- The status of a run that succeeds, by what its check has reported. -/
def success (h : History) (n : Nat) : Status := (h.reported n).getLast?.getD .finished

/-- What a call knows of what its check has reported. -/
structure Remembers (h : History) (n : Nat) : Prop where
  /-- A check that is still to be registered has reported nothing. -/
  early : (∀ s, h.now.stage? n = some s → s.isEarly = true) → h.reported n = []
  /-- The registry keeps the last final status. -/
  registered : ∀ c g, h.now.registry.get? c = some g → g.owner = n →
    g.reported = (h.reported n).getLast?
  /-- The call takes it along when it uploads. -/
  uploading : ∀ job status, h.now.stage? n = some (.uploading job status) → status = h.success n
  /-- It is the status of the final state. -/
  final : ∀ output state, .ok output ∈ (h.output n).returned → state ∈ (h.output n).final →
    state.status = h.success n

/-! ### The status over a history -/

theorem reported?_of_other (other : ∀ k state, e ≠ .report k state) :
    (Moment.mk h.now e out r').reported? n = none := by
  unfold Moment.reported?
  split
  · next event => exact absurd event (other _ _)
  · rfl

theorem stage?_of_other (step : h.now.step e = some (r', out)) (other : ∀ a, e ≠ .advance n a) :
    r'.stage? n = h.now.stage? n ∨ h.now.stage? n = none ∧ r'.stage? n = some .received := by
  cases step_of_eq step with
  | @deliver k m fresh stages =>
    by_cases same : n = k
    · rw [same, stages, if_pos rfl]
      exact .inr ⟨fresh, rfl⟩
    · exact .inl (by rw [stages, if_neg same])
  | @turn k m s a t _ _ _ stages =>
    have distinct : n ≠ k := fun same => other a (by rw [same])
    exact .inl (by rw [stages, if_neg distinct])
  | beside _ _ stages => exact .inl (stages n)

theorem success_eq (same : (h.after e out r').reported n = h.reported n) :
    (h.after e out r').success n = h.success n := by
  unfold History.success
  rw [same]

/-- **A step of a call** that has output at hand gives its final state the status that the call
remembers. -/
theorem final_of_turn {r : Runner} {msg : Message} {s : Stage} {a : Answer} {t : Turned}
    {record : OutputRecord} {status : Status} (hr : r.Consistent) (stage : r.stage? n = some s)
    (turn : Turn r n msg s a t) (course : OutputCourse (some s) record)
    (ended : ∀ job outcome, s = .ended job outcome → r.success job.checkId = status)
    (uploading : ∀ job status', s = .uploading job status' → status' = status)
    (final : ∀ output state, .ok output ∈ record.returned → state ∈ record.final →
      state.status = status) :
    ∀ output state, .ok output ∈ (record.adding n (.advance n a) t.effects).returned →
      state ∈ (record.adding n (.advance n a) t.effects).final → state.status = status := by
  -- the other steps return nothing and send no final state
  have unchanged {added : OutputRecord} (returned : added.returned = record.returned)
      (sent : added.final = record.final) : ∀ output state, .ok output ∈ added.returned →
        state ∈ added.final → state.status = status := by
    rw [returned, sent]
    exact final
  have alone {added : OutputRecord} {last : CheckState} (sent : added.final = [last])
      (mine : last.status = status) : ∀ output state, .ok output ∈ added.returned →
        state ∈ added.final → state.status = status := by
    intro output state _ mem
    rw [sent] at mem
    rw [List.mem_singleton.mp mem]
    exact mine
  cases turn with
  | finish =>
    obtain ⟨run, mine, rfl⟩ := course.of_running
    intro output state _ mem
    cases mem
  | fail =>
    obtain ⟨run, mine, rfl⟩ := course.of_ended
    rw [OutputRecord.adding_final _ _ _ (isFinal_status _)]
    intro output state returned _
    cases List.mem_singleton.mp returned
  | @close job =>
    obtain ⟨run, mine, rfl⟩ := course.of_ended
    rw [OutputRecord.adding_final _ _ _ (hr.success_final _)]
    exact alone rfl (ended job _ rfl)
  | @link job status' url =>
    obtain ⟨run, output, mine, some, rfl⟩ := course.of_uploading
    rw [saying, OutputRecord.adding_link _ _ _ _ (hr.final stage rfl)]
    exact alone rfl (uploading job status' rfl)
  | refuse =>
    rw [blank_of_isEarly rfl course, saying, OutputRecord.adding_final _ _ _ rfl]
    intro output state returned _
    cases returned
  | register =>
    rw [OutputRecord.adding_running]
    exact final
  | begin =>
    rw [OutputRecord.adding_started]
    exact final
  | upload =>
    rw [OutputRecord.adding_uploaded]
    exact final
  | settle =>
    rw [quiet, OutputRecord.adding_accepted]
    exact final
  | look _ turn =>
    cases turn <;> exact unchanged (List.append_nil _) (List.append_nil _)
  | discard | consult | pass | clear | postpone | collapse | drop =>
    exact unchanged (List.append_nil _) (List.append_nil _)

theorem Remembers.keep (remembers : h.Remembers n)
    (reported : (h.after e out r').reported n = h.reported n)
    (output : (h.after e out r').output n = h.output n)
    (kept : ∀ s, h.now.stage? n = some s → r'.stage? n = some s)
    (late : ∀ s, r'.stage? n = some s → s.isEarly = false → h.now.stage? n = some s)
    (registry : ∀ c g, r'.registry.get? c = some g → g.owner = n →
      h.now.registry.get? c = some g) : (h.after e out r').Remembers n where
  early := by
    intro early
    rw [reported]
    exact remembers.early fun s at_n => early s (kept s at_n)
  registered := by
    intro c g at_c mine
    rw [reported]
    exact remembers.registered c g (registry c g at_c mine) mine
  uploading := by
    intro job status at_n
    rw [success_eq reported]
    exact remembers.uploading job status (late _ at_n rfl)
  final := by
    rw [success_eq reported, output]
    exact remembers.final

theorem Remembers.turn {a : Answer} {msg : Message} {s : Stage} {t : Turned}
    (hr : h.now.Consistent) (stage : h.now.stage? n = some s) (turn : Turn h.now n msg s a t)
    (course : OutputCourse (some s) (h.output n)) (remembers : h.Remembers n) :
    (h.after (.advance n a) t.effects (h.now.turned n t)).Remembers n := by
  have reported : (h.after (.advance n a) t.effects (h.now.turned n t)).reported n =
      h.reported n := reported_after_of_none (reported?_of_other fun _ _ => nofun)
  have stage' : (h.now.turned n t).stage? n = some t.stage :=
    Moment.stage?_ofTurn (a := a) (t := t) stage
  -- the call owns the check that its stage says is registered
  have ended (job : Job) (outcome : Except RunError Bytes) (at_s : s = .ended job outcome) :
      h.now.success job.checkId = h.success n := by
    subst at_s
    obtain ⟨g, at_c, mine⟩ := Option.map_eq_some_iff.mp (hr.owner_of_registered stage rfl)
    unfold Runner.success History.success
    rw [at_c, ← remembers.registered _ g at_c mine]
    rfl
  have uploading (job : Job) (status : Status) (at_s : s = .uploading job status) :
      status = h.success n := by
    subst at_s
    exact remembers.uploading job status stage
  constructor
  case early =>
    intro early
    have early := early _ stage'
    rw [reported]
    refine remembers.early fun s' at_n => ?_
    rw [stage] at at_n
    cases at_n
    rcases turn.registry_cases with ⟨-, -, back⟩ | ⟨_, _, now, -⟩ | ⟨_, _, _, -, late, -⟩
    · exact back early
    · rw [now] at early
      cases early
    · rw [late] at early
      cases early
  case registered =>
    intro c g at_c mine
    rw [reported]
    replace at_c : t.registry.get? c = some g := at_c
    rcases turn.registry_cases with ⟨reg, -⟩ | ⟨job, rfl, -, -, reg⟩ | ⟨job, _, -, -, -, reg⟩
    · rw [reg] at at_c
      exact remembers.registered c g at_c mine
    · rw [reg, Table.get?_set] at at_c
      split at at_c
      · cases at_c
        have nothing : h.reported n = [] := remembers.early fun s' at_n => by
          rw [stage] at at_n
          cases at_n
          rfl
        rw [nothing]
        rfl
      · exact remembers.registered c g at_c mine
    · rw [reg, Table.get?_erase_eq_some] at at_c
      exact remembers.registered c g at_c.2 mine
  case uploading =>
    intro job status at_n
    rw [success_eq reported]
    rw [now_after, stage'] at at_n
    cases turn with
    | upload some =>
      cases at_n
      exact ended _ _ rfl
    | look _ turn => cases at_n
    | _ => cases at_n
  case final =>
    rw [success_eq reported, output_after]
    exact final_of_turn hr stage turn course ended uploading remembers.final

/-- A call whose check is registered has sent no final state. -/
theorem final_of_registered {s : Stage} {job : Job} {record : OutputRecord}
    (course : OutputCourse (some s) record) (registered : s.registered? = some job) :
    record.final = [] := by
  cases s with
  | announcing => rw [course.of_announcing]; rfl
  | running =>
    obtain ⟨run, -, rfl⟩ := course.of_running
    rfl
  | ended =>
    obtain ⟨run, -, rfl⟩ := course.of_ended
    rfl
  | _ => cases registered

theorem Remembers.report {state : CheckState} (hr : h.now.Consistent)
    (course : OutputCourse (h.now.stage? n) (h.output n)) (remembers : h.Remembers n)
    (step : h.now.step (.report k state) = some (r', out))
    (mine : h.now.owner? state.checkId = some n) :
    (h.after (.report k state) out r').Remembers n := by
  obtain ⟨s, job, stage, registered, -⟩ := hr.owner.mp mine
  rw [stage] at course
  have stage' : r'.stage? n = some s := by
    cases step_of_eq step with
    | beside _ _ stages _ _ _ => exact (stages n).trans stage
  have nothing_sent : (h.after (.report k state) out r').output n = h.output n := by
    rw [output_after]
    exact adding_of_other step (fun _ => nofun) _
  constructor
  case early =>
    intro early
    have early := early s stage'
    rw [Stage.registered?_of_isEarly early] at registered
    cases registered
  case registered =>
    intro c g at_c own
    obtain ⟨g', before, owner, kept⟩ := get?_of_report step at_c
    have old := remembers.registered c g' before (owner.trans own)
    -- a call owns one check, so it is the one that reports
    have same : c = state.checkId := hr.owner_inj (by simp [owner?, before, owner, own]) mine
    rw [kept, reported_after]
    by_cases final : state.status.isFinal = true
    · have reported : (Moment.mk h.now (.report k state) out r').reported? n = some state.status :=
        if_pos ⟨mine, final⟩
      rw [if_pos ⟨same, final⟩, reported]
      simp
    · have reported : (Moment.mk h.now (.report k state) out r').reported? n = none :=
        if_neg fun both => final both.2
      rw [if_neg fun both => final both.2, reported, old]
      simp
  case uploading =>
    intro job' status at_n
    rw [now_after, stage'] at at_n
    cases at_n
    cases registered
  case final =>
    rw [nothing_sent, final_of_registered course registered]
    intro output state' _ mem
    cases mem

/-- **What a call knows** is kept by every event. -/
theorem Remembers.step (hr : h.now.Consistent)
    (course : OutputCourse (h.now.stage? n) (h.output n)) (remembers : h.Remembers n)
    (step : h.now.step e = some (r', out)) : (h.after e out r').Remembers n := by
  by_cases mine : ∃ k state, e = .report k state ∧ h.now.owner? state.checkId = some n
  · obtain ⟨k, state, rfl, mine⟩ := mine
    exact remembers.report hr course step mine
  by_cases own : ∃ a, e = .advance n a
  · obtain ⟨a, rfl⟩ := own
    obtain ⟨call, t, at_n, turn, rfl, rfl⟩ := turn_of_advance step
    have stage : h.now.stage? n = some call.stage := by simp [stage?, at_n]
    rw [stage] at course
    exact remembers.turn hr stage turn course
  -- the event concerns other calls and other checks
  have reported : (Moment.mk h.now e out r').reported? n = none := by
    unfold Moment.reported?
    split
    · next k state event => exact if_neg fun reports => mine ⟨k, state, event, reports.1⟩
    · rfl
  have stages := stage?_of_other step fun a same => own ⟨a, same⟩
  refine remembers.keep (reported_after_of_none reported) ?_ ?_ ?_ ?_
  · rw [output_after]
    exact adding_of_other step (fun a same => own ⟨a, same⟩) _
  · intro s at_n
    rcases stages with same | ⟨absent, -⟩
    · rw [same]
      exact at_n
    · rw [absent] at at_n
      cases at_n
  · intro s at_n late
    rcases stages with same | ⟨-, received⟩
    · rw [← same]
      exact at_n
    · rw [received] at at_n
      cases at_n
      cases late
  · intro c g at_c owned
    cases happens_of_step step with
    | @turn k a _ _ _ turn =>
      refine turn.get?_registry_before at_c ?_
      rintro rfl
      exact own ⟨a, by rw [owned]⟩
    | @take k state | @refuse k state =>
      obtain ⟨g', before, owner, kept⟩ := get?_of_report step at_c
      have strange : ¬ (c = state.checkId ∧ state.status.isFinal = true) := by
        rintro ⟨rfl, -⟩
        exact mine ⟨k, state, rfl, by simp [owner?, before, owner, owned]⟩
      rw [if_neg strange] at kept
      have same : g' = g := by
        cases g
        cases g'
        simp_all
      rw [← same]
      exact before
    | deliver | abort | lapse | stopAll | forward | answer => exact at_c

variable (timeLimit : Span) (abortList : Option AbortList) (events : List RunnerEvent)

/-- **What a call knows of what its check has reported**, after every history. -/
theorem remembers (n : Nat) : ((Runner.start timeLimit abortList).history events).Remembers n := by
  have both : OutputCourse (((Runner.start timeLimit abortList).history events).now.stage? n)
      (((Runner.start timeLimit abortList).history events).output n) ∧
      ((Runner.start timeLimit abortList).history events).Remembers n := by
    refine induct_consistent timeLimit abortList events
      (P := fun h => OutputCourse (h.now.stage? n) (h.output n) ∧ h.Remembers n) ?_ ?_
    · refine ⟨.absent, fun _ => rfl, ?_, ?_, ?_⟩
      · intro c g at_c
        cases at_c
      · intro job status at_n
        cases at_n
      · intro output state returned
        cases returned
    · intro h e r' out hr ih step
      exact ⟨output_course_step hr ih.1 step, ih.2.step hr ih.1 step⟩
  exact both.2

end History

/-! ## What a call has sent -/

/-- The job of a call that has begun its run and sent no final state. -/
def Stage.begun? : Stage → Option Job
  | .running job | .ended job _ | .uploading job _ => some job
  | _ => none

/-- The states that a call has sent, what was answered to them and the runs that it has begun, by
its stage. -/
inductive Dialogue : Option Stage → List CheckState → List Bool → List RunSpec → Prop where
  | absent : Dialogue none [] [] []
  | early {s : Stage} (early : s.isEarly = true) : Dialogue (some s) [] [] []
  | announced {job : Job} :
      Dialogue (some (.announcing job)) [.plain job.checkId .running] [] []
  | begun {s : Stage} {job : Job} {run : RunSpec} (begun : s.begun? = some job)
      (mine : run.checkId = job.checkId) (announced : Bool) :
      Dialogue (some s) [.plain run.checkId .running] [announced] [run]
  | concluding (run : RunSpec) (announced : Bool) (state : CheckState) :
      Dialogue (some (.concluding state)) [.plain run.checkId .running, state] [announced] [run]
  | refused (state : CheckState) : Dialogue (some (.concluding state)) [state] [] []
  | unrun {s : Stage} (isOver : s.isOver = true) (said : List CheckState) (accepted : List Bool) :
      Dialogue (some s) said accepted []
  | done (run : RunSpec) (announced concluded : Bool) (state : CheckState) :
      Dialogue (some (.done (if concluded then .delete else .keep)))
        [.plain run.checkId .running, state] [announced, concluded] [run]

namespace Dialogue

variable {s : Stage} {job : Job} {said : List CheckState} {accepted : List Bool}
  {begun : List RunSpec}

theorem of_isEarly (dialogue : Dialogue (some s) said accepted begun) (early : s.isEarly = true) :
    said = [] ∧ accepted = [] ∧ begun = [] := by
  cases dialogue with
  | early => exact ⟨rfl, rfl, rfl⟩
  | begun begun => cases s <;> simp_all [Stage.isEarly, Stage.begun?]
  | unrun isOver => cases s <;> simp_all [Stage.isEarly, Stage.isOver]
  | announced | concluding | refused | done => cases early

theorem of_begun? (dialogue : Dialogue (some s) said accepted begun) (at_s : s.begun? = some job) :
    ∃ run announced, run.checkId = job.checkId ∧ said = [.plain run.checkId .running] ∧
      accepted = [announced] ∧ begun = [run] := by
  cases dialogue with
  | begun begun mine announced =>
    rw [at_s] at begun
    cases begun
    exact ⟨_, announced, mine, rfl, rfl, rfl⟩
  | early early => cases s <;> simp_all [Stage.isEarly, Stage.begun?]
  | unrun isOver => cases s <;> simp_all [Stage.isOver, Stage.begun?]
  | announced | concluding | refused | done => cases at_s

end Dialogue

namespace Runner

variable {r : Runner} {n : Nat} {msg : Message} {s : Stage} {a : Answer} {t : Turned}
  {said : List CheckState} {accepted : List Bool} {begun : List RunSpec}

/-- **A step of a call** takes what it has sent from one row of the table to another. -/
theorem Turn.dialogue (turn : Turn r n msg s a t)
    (dialogue : Dialogue (some s) said accepted begun) :
    Dialogue (some t.stage) (said ++ t.effects.filterMap (·.said? n))
      (accepted ++ ((RunnerEvent.advance n a).accepted? n).toList)
      (begun ++ t.effects.filterMap (·.begun? n)) := by
  have said_sent (state : CheckState) : [Effect.sent n state].filterMap (·.said? n) = [state] := by
    simp [Effect.said?]
  have answered (ok : Bool) :
      ((RunnerEvent.advance n (.accepted ok)).accepted? n).toList = [ok] := by
    simp [RunnerEvent.accepted?]
  cases turn with
  | discard | postpone | collapse | drop =>
    obtain ⟨rfl, rfl, rfl⟩ := dialogue.of_isEarly rfl
    exact .unrun rfl _ _
  | consult | pass | clear =>
    obtain ⟨rfl, rfl, rfl⟩ := dialogue.of_isEarly rfl
    exact .early rfl
  | look _ turn =>
    obtain ⟨rfl, rfl, rfl⟩ := dialogue.of_isEarly rfl
    cases turn <;> exact .early rfl
  | refuse =>
    obtain ⟨rfl, rfl, rfl⟩ := dialogue.of_isEarly rfl
    rw [saying, said_sent]
    exact .refused _
  | register =>
    obtain ⟨rfl, rfl, rfl⟩ := dialogue.of_isEarly rfl
    rw [said_sent]
    exact .announced
  | @begin job ok =>
    have started : [Effect.started n (.ofJob job r.timeLimit)].filterMap (·.begun? n) =
        [.ofJob job r.timeLimit] := by simp [Effect.begun?]
    rw [started, answered]
    cases dialogue with
    | announced =>
      have mine : (RunSpec.ofJob job r.timeLimit).checkId = job.checkId := rfl
      exact .begun rfl mine ok
    | early early => cases early
    | begun begun => cases begun
    | unrun isOver => cases isOver
  | finish =>
    obtain ⟨run, announced, mine, rfl, rfl, rfl⟩ := dialogue.of_begun? rfl
    exact .begun rfl mine announced
  | upload =>
    obtain ⟨run, announced, mine, rfl, rfl, rfl⟩ := dialogue.of_begun? rfl
    exact .begun rfl mine announced
  | fail | close =>
    obtain ⟨run, announced, mine, rfl, rfl, rfl⟩ := dialogue.of_begun? rfl
    rw [said_sent]
    exact .concluding run announced _
  | link =>
    obtain ⟨run, announced, mine, rfl, rfl, rfl⟩ := dialogue.of_begun? rfl
    rw [saying, said_sent]
    exact .concluding run announced _
  | @settle state ok =>
    rw [quiet, answered]
    cases dialogue with
    | concluding run announced => exact .done run announced ok state
    | refused => exact .unrun rfl _ _
    | early early => cases early
    | begun begun => cases begun
    | unrun isOver => cases isOver

end Runner

namespace History

variable {h : History} {n : Nat} {e : RunnerEvent} {out : List Effect} {r' : Runner}

theorem dialogue_step
    (dialogue :
      Dialogue (h.now.stage? n) (h.record n).said (h.record n).accepted (h.record n).begun)
    (step : h.now.step e = some (r', out)) :
    Dialogue (r'.stage? n) ((h.after e out r').record n).said
      ((h.after e out r').record n).accepted ((h.after e out r').record n).begun := by
  rw [record_after]
  by_cases own : ∃ a, e = .advance n a
  · obtain ⟨a, rfl⟩ := own
    obtain ⟨call, t, at_n, turn, rfl, rfl⟩ := turn_of_advance step
    have stage : h.now.stage? n = some call.stage := by simp [stage?, at_n]
    have stage' : (h.now.turned n t).stage? n = some t.stage :=
      Moment.stage?_ofTurn (a := a) (t := t) stage
    rw [stage] at dialogue
    rw [stage']
    exact turn.dialogue dialogue
  · have other (a : Answer) : e ≠ .advance n a := fun same => own ⟨a, same⟩
    rw [record_eq_blank step other, CallRecord.append_blank]
    rcases stage?_of_other step other with same | ⟨absent, received⟩
    · rw [same]
      exact dialogue
    · rw [absent] at dialogue
      rw [received]
      generalize (h.record n).said = said, (h.record n).accepted = accepted,
        (h.record n).begun = begun at dialogue ⊢
      cases dialogue
      exact .early rfl

theorem record_eq_flatMap {α : Type} (part : CallRecord → List α) (blank : part .blank = [])
    (append : ∀ record added, part (record ++ added) = part record ++ part added) (h : History)
    (n : Nat) : part (h.record n) = h.moments.flatMap fun m => part (m.record n) := by
  obtain ⟨moments, now⟩ := h
  unfold record
  dsimp only
  induction moments using List.reverseRecOn with
  | nil => exact blank
  | append_singleton moments m ih =>
    rw [List.foldl_append, List.foldl_cons, List.foldl_nil, append, ih, List.flatMap_append,
      List.flatMap_singleton]

theorem output_final (h : History) (n : Nat) :
    (h.output n).final = (h.record n).said.filter (·.status.isFinal) := by
  rw [record_eq_flatMap (·.said) rfl fun _ _ => rfl]
  exact congrArg (List.filter _) List.filterMap_flatMap

theorem output_begun (h : History) (n : Nat) : (h.output n).begun = (h.record n).begun := by
  rw [record_eq_flatMap (·.begun) rfl fun _ _ => rfl]
  exact List.filterMap_flatMap

variable (timeLimit : Span) (abortList : Option AbortList) (events : List RunnerEvent)

theorem dialogue (n : Nat) :
    Dialogue (((Runner.start timeLimit abortList).history events).now.stage? n)
      (((Runner.start timeLimit abortList).history events).record n).said
      (((Runner.start timeLimit abortList).history events).record n).accepted
      (((Runner.start timeLimit abortList).history events).record n).begun :=
  induct_consistent timeLimit abortList events
    (P := fun h => Dialogue (h.now.stage? n) (h.record n).said (h.record n).accepted
      (h.record n).begun) .absent fun _ _ _ _ _ dialogue step => dialogue_step dialogue step

end History

/-! ## How a call goes on -/

namespace Runner

variable {r : Runner} {n : Nat} {job : Job}

theorem step_announcing (stage : r.stage? n = some (.announcing job)) :
    ∃ r', r'.stage? n = some (.running job) ∧ ∀ ok, r.step (.advance n (.accepted ok)) =
      some (r', [.started n (.ofJob job r.timeLimit)]) := by
  obtain ⟨call, at_n, at_stage⟩ := Option.map_eq_some_iff.mp stage
  refine ⟨_, stage?_move stage (.running job), fun ok => ?_⟩
  simp [step, advance, at_n, at_stage]

theorem step_running (outcome : Except RunError Bytes) (stage : r.stage? n = some (.running job)) :
    ∃ r', r.step (.advance n (.outcome outcome)) = some (r', []) ∧
      r'.stage? n = some (.ended job outcome) := by
  obtain ⟨call, at_n, at_stage⟩ := Option.map_eq_some_iff.mp stage
  refine ⟨_, ?_, stage?_move stage (.ended job outcome)⟩
  simp [step, advance, at_n, at_stage]

/-- A call whose run has ended goes on by itself, to its final state or with its output. -/
theorem step_ended {outcome : Except RunError Bytes}
    (stage : r.stage? n = some (.ended job outcome)) : ∃ r' s effect,
      r.step (.advance n .onward) = some (r', [effect]) ∧ r'.stage? n = some s ∧
        ((∃ state, s = .concluding state ∧ effect = .sent n state) ∨
          ∃ status output, s = .uploading job status ∧ outcome = .ok output ∧
            effect = .uploaded n job.checkId job.startTime output) := by
  obtain ⟨call, at_n, at_stage⟩ := Option.map_eq_some_iff.mp stage
  obtain ⟨t, turn, eq⟩ := turn_of_unregister r n call.message job outcome
  have step : r.step (.advance n .onward) = some (r.turned n t, t.effects) := by
    simp [Runner.step, advance, at_n, at_stage, eq]
  have stage' : (r.turned n t).stage? n = some t.stage :=
    Moment.stage?_ofTurn (a := .onward) (t := t) stage
  cases turn with
  | fail | close => exact ⟨_, _, _, step, stage', .inl ⟨_, rfl, rfl⟩⟩
  | upload => exact ⟨_, _, _, step, stage', .inr ⟨_, _, rfl, rfl, rfl⟩⟩

theorem step_uploading {status : Status} (url : Option String)
    (stage : r.stage? n = some (.uploading job status)) : ∃ r' state,
      r.step (.advance n (.link url)) = some (r', [.sent n state]) ∧
        r'.stage? n = some (.concluding state) ∧ state.raw = url := by
  obtain ⟨call, at_n, at_stage⟩ := Option.map_eq_some_iff.mp stage
  refine ⟨_, { CheckState.plain job.checkId status with raw := url }, ?_,
    stage?_move stage (.concluding _), rfl⟩
  simp [step, advance, at_n, at_stage, conclude]

theorem step_concluding {state : CheckState} (ok : Bool)
    (stage : r.stage? n = some (.concluding state)) : ∃ r',
      r.step (.advance n (.accepted ok)) = some (r', []) ∧
        r'.stage? n = some (.done (if ok then .delete else .keep)) := by
  obtain ⟨call, at_n, at_stage⟩ := Option.map_eq_some_iff.mp stage
  refine ⟨_, ?_, stage?_move stage (.done (if ok then .delete else .keep))⟩
  simp [step, advance, at_n, at_stage]

end Runner

/-! ## The conclusion of a run -/

namespace History

variable {h : History} {n : Nat} {run : RunSpec}

theorem final_of_output {state : CheckState} (course : OutputCourse (h.now.stage? n) (h.output n))
    (remembers : h.Remembers n) (began : run ∈ (h.output n).begun)
    (sent : state ∈ (h.output n).final) : ∃ outcome,
      (h.output n).begun = [run] ∧ (h.output n).returned = [outcome] ∧
        (h.output n).final = [state] ∧
        Conclusion run.checkId (h.reported n) outcome (h.output n).uploaded (h.output n).links
          state := by
  have status := remembers.final
  generalize (h.output n) = record, h.now.stage? n = stage at course began sent status ⊢
  cases course with
  | absent | unrun | refused => cases began
  | running | ended | uploading => cases sent
  | concluded mute closes =>
    cases List.mem_singleton.mp began
    cases List.mem_singleton.mp sent
    refine ⟨_, rfl, rfl, rfl, ?_⟩
    cases closes with
    | failed e =>
      cases e with
      | timeout => exact .timeout _ _
      | cancelled => exact .cancelled _
      | _ => exact .failed rfl
    | silent status' =>
      obtain rfl : status' = h.success n := status _ _ (List.mem_singleton.mpr rfl) sent
      exact .silent
    | uploaded some url status' =>
      obtain rfl : status' = h.success n := status _ _ (List.mem_singleton.mpr rfl) sent
      exact .uploaded some url

theorem final_of_isOver {s : Stage} {record : OutputRecord}
    (course : OutputCourse (some s) record) (isOver : s.isOver = true)
    (began : run ∈ record.begun) : ∃ state, record.final = [state] := by
  cases course with
  | unrun | refused => cases began
  | running | ended | uploading => cases isOver
  | concluded => exact ⟨_, rfl⟩

/-- Both states that it has sent were answered, and the answer to the final one disposes of its
message. -/
theorem disposed_of_isOver {s : Stage} (course : OutputCourse (some s) (h.output n))
    (dialogue : Dialogue (some s) (h.record n).said (h.record n).accepted (h.record n).begun)
    (isOver : s.isOver = true) (began : run ∈ (h.output n).begun) :
    ∃ state announced concluded, (h.output n).final = [state] ∧
      (h.record n).said = [.plain run.checkId .running, state] ∧
      (h.record n).accepted = [announced, concluded] ∧
      s = .done (if concluded then .delete else .keep) := by
  obtain ⟨last, final⟩ := final_of_isOver course isOver began
  rw [output_begun] at began
  -- of the two states that the call has sent, `RUNNING` is not final
  have filtered := output_final h n
  rw [final] at filtered ⊢
  generalize (h.record n).said = said, (h.record n).accepted = accepted,
    (h.record n).begun = begun at dialogue began filtered ⊢
  cases dialogue with
  | early | announced | refused | unrun => cases began
  | begun begun => cases s <;> simp_all [Stage.isOver, Stage.begun?]
  | concluding => cases isOver
  | done run' announced concluded state =>
    cases List.mem_singleton.mp began
    have same : [last] = [state].filter (·.status.isFinal) := filtered
    have mem : last ∈ [state].filter (·.status.isFinal) := same ▸ List.mem_singleton_self last
    obtain rfl : last = state := List.mem_singleton.mp (List.mem_filter.mp mem).1
    exact ⟨last, announced, concluded, rfl, rfl, rfl, rfl⟩

variable (timeLimit : Span) (abortList : Option AbortList) (events : List RunnerEvent)

/-- **The conclusion of a run.** -/
theorem concludes_with_final_state (n : Nat) :
    ((Runner.start timeLimit abortList).history events).Concludes n := by
  have course := output_course timeLimit abortList events n
  have remembers := remembers timeLimit abortList events n
  have dialogue := dialogue timeLimit abortList events n
  generalize (Runner.start timeLimit abortList).history events = h at course remembers dialogue
  exact {
    final := fun _ began _ sent => final_of_output course remembers began sent
    disposed := fun _ began _ stage isOver =>
      disposed_of_isOver (stage ▸ course) (stage ▸ dialogue) isOver began
    begins := fun _ stage => step_announcing stage
    returns := fun _ outcome stage => step_running outcome stage
    leaves := fun _ _ stage => step_ended stage
    links := fun _ _ url stage => step_uploading url stage
    ends := fun _ ok stage => step_concluding ok stage }

end History

end CheckAgent
