import CheckAgent.Proofs.Container.Collecting
import CheckAgent.Proofs.Container.Lifecycle
import CheckAgent.Proofs.Runner.Record
import CheckAgent.Proofs.Runner.Reports

/-!
# What becomes of the output of a run

The output of a container goes through two hands. **The run** gathers it: all of the first stream, a
line feed, and all of the second. **The call** uploads what the run returns, unless that is empty,
and puts the link that it gets into the final state.

**Main result** (`output_of_exited_container`). The output of a container that exits is uploaded
whole and once, if no error is among its frames. That is so whatever the container wrote, since what
the run returns is never empty: of a container that wrote nothing a line feed is uploaded
(`blank_output_uploaded`). With an error among the frames the check fails and nothing is uploaded. A
final state holds a link only if the output was uploaded and this link was the answer.

`OutputCourse` is the table that a call goes through from the start of its run to its final state.
-/

namespace CheckAgent

open CheckAgent.Text

/-! ## Output of a container -/

namespace LogStream

/-- Something was written. -/
def Wrote (frames : LogStream) : Prop := frames.stdout ≠ [] ∨ frames.stderr ≠ []

instance (frames : LogStream) : Decidable frames.Wrote := by
  unfold Wrote
  infer_instance

/-- Only without output the two streams are joined to a mere line feed. -/
theorem joined_eq_newline_iff {out err : Bytes} :
    out ++ '\n'.toUInt8 :: err = ['\n'.toUInt8] ↔ out = [] ∧ err = [] := by
  cases out <;> simp

end LogStream

/-- **The result of a container that exits** is its output. -/
theorem ContainerRun.result_of_exited {host : ContainerHost} {rt : Runtime} {run : RunSpec}
    {around : Circumstances} {cancelAt : Option Nat} {id : String}
    (exits : .logs id ∈ (follow host rt run around cancelAt).word) :
    (follow host rt run around cancelAt).result =
      some (rt.logs.collect.mapError (.logs run.checkId)) := by
  obtain ⟨k, life, word, -, rest⟩ := @passes_follow host rt run around cancelAt |>.word
  rw [word] at exits
  rcases List.mem_append.mp exits with pull | exits
  · cases of_mem_pullWord pull
  · rcases rest with rfl | ⟨-, result, lives, eq⟩
    · cases exits
    · rw [eq]
      cases lives with
      | read => rfl
      | unmade | unstarted | lost | stopped | stoppedUnasked => simp [creation] at exits

/-! ## Output of a call -/

def RunnerEvent.returned? (n : Nat) : RunnerEvent → Option (Except RunError Bytes)
  | .advance k (.outcome outcome) => if k = n then some outcome else none
  | _ => none

/-- What is answered to the output of call `n`. -/
def RunnerEvent.link? (n : Nat) : RunnerEvent → Option (Option String)
  | .advance k (.link url) => if k = n then some url else none
  | _ => none

def Effect.output? (n : Nat) : Effect → Option Bytes
  | .uploaded k _ _ output => if k = n then some output else none
  | _ => none

/-- What is known of the run of a call and its output. -/
structure OutputRecord where
  /-- The runs that the call began. -/
  begun : List RunSpec
  /-- What they returned. -/
  returned : List (Except RunError Bytes)
  uploaded : List Bytes
  /-- The answers to what was uploaded. -/
  links : List (Option String)
  /-- The final states that the call sent. -/
  final : List CheckState

namespace OutputRecord

def blank : OutputRecord := ⟨[], [], [], [], []⟩

/-- A record with what an event and its effects add to it. -/
def adding (record : OutputRecord) (n : Nat) (e : RunnerEvent) (effects : List Effect) :
    OutputRecord where
  begun := record.begun ++ effects.filterMap (·.begun? n)
  returned := record.returned ++ (e.returned? n).toList
  uploaded := record.uploaded ++ effects.filterMap (·.output? n)
  links := record.links ++ (e.link? n).toList
  final := record.final ++ (effects.filterMap (·.said? n)).filter (·.status.isFinal)

section

variable (record : OutputRecord) (n : Nat) (state : CheckState)

theorem adding_final (final : state.status.isFinal = true) :
    record.adding n (.advance n .onward) [.sent n state] =
      { record with final := record.final ++ [state] } := by
  simp [adding, RunnerEvent.returned?, RunnerEvent.link?, Effect.begun?, Effect.output?,
    Effect.said?, final]

theorem adding_running (checkId : String) :
    record.adding n (.advance n .onward) [.sent n (.plain checkId .running)] = record := by
  simp [adding, RunnerEvent.returned?, RunnerEvent.link?, Effect.begun?, Effect.output?,
    Effect.said?, CheckState.plain, Status.isFinal]

theorem adding_started (run : RunSpec) (ok : Bool) :
    record.adding n (.advance n (.accepted ok)) [.started n run] =
      { record with begun := record.begun ++ [run] } := by
  simp [adding, RunnerEvent.returned?, RunnerEvent.link?, Effect.begun?, Effect.output?,
    Effect.said?]

theorem adding_outcome (outcome : Except RunError Bytes) :
    record.adding n (.advance n (.outcome outcome)) [] =
      { record with returned := record.returned ++ [outcome] } := by
  simp [adding, RunnerEvent.returned?, RunnerEvent.link?]

theorem adding_accepted (ok : Bool) : record.adding n (.advance n (.accepted ok)) [] = record := by
  simp [adding, RunnerEvent.returned?, RunnerEvent.link?]

theorem adding_uploaded (checkId : String) (startTime : Instant) (output : Bytes) :
    record.adding n (.advance n .onward) [.uploaded n checkId startTime output] =
      { record with uploaded := record.uploaded ++ [output] } := by
  simp [adding, RunnerEvent.returned?, RunnerEvent.link?, Effect.begun?, Effect.output?,
    Effect.said?]

theorem adding_link (url : Option String) (final : state.status.isFinal = true) :
    record.adding n (.advance n (.link url)) [.sent n state] =
      { record with links := record.links ++ [url], final := record.final ++ [state] } := by
  simp [adding, RunnerEvent.returned?, RunnerEvent.link?, Effect.begun?, Effect.output?,
    Effect.said?, final]

end

end OutputRecord

namespace History

/-- What a history tells of the run of a call and its output. -/
def output (h : History) (n : Nat) : OutputRecord where
  begun := (h.moments.flatMap (·.effects)).filterMap (·.begun? n)
  returned := h.moments.filterMap (·.event.returned? n)
  uploaded := (h.moments.flatMap (·.effects)).filterMap (·.output? n)
  links := h.moments.filterMap (·.event.link? n)
  final := ((h.moments.flatMap (·.effects)).filterMap (·.said? n)).filter (·.status.isFinal)

end History

/-- How a call concludes after what its run returned: what it uploads, the answers to that, and the
final state. -/
inductive Closes (c : String) :
    Except RunError Bytes → List Bytes → List (Option String) → CheckState → Prop where
  | failed (e : RunError) : Closes c (.error e) [] [] (.plain c e.status)
  | silent (status : Status) : Closes c (.ok []) [] [] (.plain c status)
  | uploaded {output : Bytes} (some : output ≠ []) (url : Option String) (status : Status) :
      Closes c (.ok output) [output] [url] { CheckState.plain c status with raw := url }

/-- How far a call is with its run and the output. -/
inductive OutputCourse : Option Stage → OutputRecord → Prop where
  | absent : OutputCourse none .blank
  | unrun {s : Stage}
      (unrun : s.isEarly = true ∨ (∃ job, s = .announcing job) ∨ s.isOver = true) :
      OutputCourse (some s) .blank
  | refused {s : Stage} (mute : s.isMute = true) (c : String) :
      OutputCourse (some s) ⟨[], [], [], [], [.plain c .aborted]⟩
  | running {job : Job} {run : RunSpec} (mine : run.checkId = job.checkId) :
      OutputCourse (some (.running job)) ⟨[run], [], [], [], []⟩
  | ended {job : Job} {run : RunSpec} (mine : run.checkId = job.checkId)
      (outcome : Except RunError Bytes) :
      OutputCourse (some (.ended job outcome)) ⟨[run], [outcome], [], [], []⟩
  | uploading {job : Job} {run : RunSpec} (mine : run.checkId = job.checkId) {output : Bytes}
      (some : output ≠ []) (status : Status) :
      OutputCourse (.some (.uploading job status)) ⟨[run], [.ok output], [output], [], []⟩
  | concluded {s : Stage} (mute : s.isMute = true) {run : RunSpec}
      {outcome : Except RunError Bytes} {uploaded : List Bytes} {links : List (Option String)}
      {state : CheckState} (closes : Closes run.checkId outcome uploaded links state) :
      OutputCourse (some s) ⟨[run], [outcome], uploaded, links, [state]⟩

/-- What becomes of the output of a container that has exited. -/
structure Carried (frames : LogStream) (checkId : String) (record : OutputRecord) : Prop where
  /-- Without an error among its frames, the output is uploaded. -/
  intact : frames.fault? = none →
    record.uploaded = [frames.stdout ++ '\n'.toUInt8 :: frames.stderr]
  /-- It is a mere line feed exactly if nothing was written. -/
  blank : frames.fault? = none → (record.uploaded = [['\n'.toUInt8]] ↔ ¬ frames.Wrote)
  /-- With an error the check has failed, and nothing is uploaded. -/
  faulty : ∀ e, frames.fault? = some e →
    record.uploaded = [] ∧ ∀ state ∈ record.final, state = .plain checkId .failed
  /-- A final state holds a link only if something was uploaded, and this link was the answer. -/
  raw : ∀ state ∈ record.final, ∀ url, state.raw = some url →
    record.uploaded ≠ [] ∧ record.links = [some url]

namespace OutputCourse

variable {stage : Option Stage} {record : OutputRecord} {run : RunSpec}

/-! ### What a stage says of the record -/

variable {job : Job}

theorem of_announcing (course : OutputCourse (some (.announcing job)) record) :
    record = .blank := by
  cases course with
  | unrun => rfl
  | refused mute | concluded mute => cases mute

theorem of_running (course : OutputCourse (some (.running job)) record) :
    ∃ run, run.checkId = job.checkId ∧ record = ⟨[run], [], [], [], []⟩ := by
  cases course with
  | running mine => exact ⟨_, mine, rfl⟩
  | unrun unrun => simp [Stage.isEarly, Stage.isOver] at unrun
  | refused mute | concluded mute => cases mute

theorem of_ended {outcome : Except RunError Bytes}
    (course : OutputCourse (some (.ended job outcome)) record) :
    ∃ run, run.checkId = job.checkId ∧ record = ⟨[run], [outcome], [], [], []⟩ := by
  cases course with
  | ended mine => exact ⟨_, mine, rfl⟩
  | unrun unrun => simp [Stage.isEarly, Stage.isOver] at unrun
  | refused mute | concluded mute => cases mute

theorem of_uploading {status : Status}
    (course : OutputCourse (some (.uploading job status)) record) :
    ∃ run output, run.checkId = job.checkId ∧ output ≠ [] ∧
      record = ⟨[run], [.ok output], [output], [], []⟩ := by
  cases course with
  | uploading mine some => exact ⟨_, _, mine, some, rfl⟩
  | unrun unrun => simp [Stage.isEarly, Stage.isOver] at unrun
  | refused mute | concluded mute => cases mute

/-! ### What was returned -/

theorem of_ok {output : Bytes} (course : OutputCourse stage record) (began : run ∈ record.begun)
    (returned : .ok output ∈ record.returned)
    (moved : ∀ job, stage ≠ some (.ended job (.ok output))) (some : output ≠ []) :
    record.uploaded = [output] ∧
      ∀ state ∈ record.final, ∀ url, state.raw = .some url → record.links = [.some url] := by
  cases course with
  | absent | unrun | refused => cases began
  | running => cases returned
  | ended =>
    cases List.mem_singleton.mp returned
    exact absurd rfl (moved _)
  | uploading =>
    cases List.mem_singleton.mp returned
    exact ⟨rfl, List.forall_mem_nil _⟩
  | concluded mute closes =>
    cases List.mem_singleton.mp returned
    cases closes with
    | silent => exact absurd rfl some
    | uploaded some url status =>
      refine ⟨rfl, fun state mem url' link => ?_⟩
      cases List.mem_singleton.mp mem
      exact congrArg (fun l => [l]) link

theorem of_error {e : RunError} (course : OutputCourse stage record) (began : run ∈ record.begun)
    (returned : .error e ∈ record.returned)
    (moved : ∀ job, stage ≠ some (.ended job (.error e))) :
    record.uploaded = [] ∧ ∀ state ∈ record.final, state = .plain run.checkId e.status := by
  cases course with
  | absent | unrun | refused => cases began
  | running => cases returned
  | ended =>
    cases List.mem_singleton.mp returned
    exact absurd rfl (moved _)
  | uploading => cases List.mem_singleton.mp returned
  | concluded mute closes =>
    cases List.mem_singleton.mp returned
    cases List.mem_singleton.mp began
    cases closes
    exact ⟨rfl, fun state mem => List.mem_singleton.mp mem⟩

end OutputCourse

namespace Runner

variable {r : Runner} {n : Nat} {msg : Message} {s : Stage} {a : Answer} {t : Turned}

theorem blank_of_isEarly (early : s.isEarly = true) {record : OutputRecord}
    (course : OutputCourse (some s) record) : record = .blank := by
  cases course with
  | unrun => rfl
  | refused mute | concluded mute => cases s <;> simp_all [Stage.isEarly, Stage.isMute]
  | running | ended | uploading => cases early

/-- **A step of a call** takes its output from one row of the table to another. -/
theorem Turn.output (hr : r.Consistent) (stage : r.stage? n = some s) (turn : Turn r n msg s a t)
    {record : OutputRecord} (course : OutputCourse (some s) record) :
    OutputCourse (some t.stage) (record.adding n (.advance n a) t.effects) := by
  cases turn with
  | discard | postpone | collapse | drop =>
    rw [blank_of_isEarly rfl course]
    exact .unrun (.inr (.inr rfl))
  | consult | pass | clear =>
    rw [blank_of_isEarly rfl course]
    exact .unrun (.inl rfl)
  | look asked turn =>
    rw [blank_of_isEarly rfl course]
    cases turn <;> exact .unrun (.inl rfl)
  | register free =>
    rw [blank_of_isEarly rfl course, OutputRecord.adding_running]
    exact .unrun (.inr (.inl ⟨_, rfl⟩))
  | refuse =>
    rw [blank_of_isEarly rfl course, saying, OutputRecord.adding_final _ _ _ rfl]
    exact .refused rfl _
  | begin =>
    rw [course.of_announcing, OutputRecord.adding_started]
    exact .running rfl
  | finish =>
    obtain ⟨run, mine, rfl⟩ := course.of_running
    rw [quiet, OutputRecord.adding_outcome]
    exact .ended mine _
  | fail =>
    obtain ⟨run, mine, rfl⟩ := course.of_ended
    rw [← mine, OutputRecord.adding_final _ _ _ (isFinal_status _)]
    exact .concluded rfl (.failed _)
  | close =>
    obtain ⟨run, mine, rfl⟩ := course.of_ended
    rw [OutputRecord.adding_final _ _ _ (hr.success_final _), ← mine]
    exact .concluded rfl (.silent _)
  | upload some =>
    obtain ⟨run, mine, rfl⟩ := course.of_ended
    rw [OutputRecord.adding_uploaded]
    exact .uploading mine some _
  | link =>
    obtain ⟨run, output, mine, some, rfl⟩ := course.of_uploading
    rw [saying, OutputRecord.adding_link _ _ _ _ (hr.final stage rfl), ← mine]
    exact .concluded rfl (.uploaded some _ _)
  | settle =>
    rw [quiet, OutputRecord.adding_accepted]
    cases course with
    | refused mute c => exact .refused rfl c
    | concluded mute closes => exact .concluded rfl closes
    | unrun unrun => simp [Stage.isEarly, Stage.isOver] at unrun

theorem adding_of_other {r' : Runner} {e : RunnerEvent} {out : List Effect}
    (step : r.step e = some (r', out)) (other : ∀ a, e ≠ .advance n a) (record : OutputRecord) :
    record.adding n e out = record := by
  have strange (effect : Effect) (mem : effect ∈ out) : effect.call? ≠ some n := by
    intro call
    obtain ⟨a, same⟩ := call?_of_step step mem call
    exact other a same
  have silent {α : Type} (f : Effect → Option α)
      (own : ∀ effect, effect.call? ≠ some n → f effect = none) : out.filterMap f = [] :=
    List.filterMap_eq_nil_iff.mpr fun effect mem => own effect (strange effect mem)
  have returned : e.returned? n = none := by
    unfold RunnerEvent.returned?
    split
    · exact if_neg fun same => other _ (congrArg (RunnerEvent.advance · _) same)
    · rfl
  have link : e.link? n = none := by
    unfold RunnerEvent.link?
    split
    · exact if_neg fun same => other _ (congrArg (RunnerEvent.advance · _) same)
    · rfl
  unfold OutputRecord.adding
  rw [returned, link, silent _ ?begun, silent _ ?output, silent _ ?said]
  · simp
  all_goals
    intro effect call
    cases effect <;> simp_all [Effect.call?, Effect.begun?, Effect.output?, Effect.said?]

end Runner

namespace History

open Runner

theorem output_after (h : History) (e : RunnerEvent) (out : List Effect) (r' : Runner) (n : Nat) :
    (h.after e out r').output n = (h.output n).adding n e out := by
  cases returned : e.returned? n <;> cases link : e.link? n <;>
    simp [output, after, OutputRecord.adding, returned, link]

theorem output_course_step {h : History} {e : RunnerEvent} {out : List Effect} {r' : Runner}
    {n : Nat} (hr : h.now.Consistent) (course : OutputCourse (h.now.stage? n) (h.output n))
    (step : h.now.step e = some (r', out)) :
    OutputCourse (r'.stage? n) ((h.after e out r').output n) := by
  rw [output_after]
  cases step_of_eq step with
  | @deliver k m fresh stages =>
    rw [adding_of_other step fun _ => nofun, stages]
    split
    · next same =>
      rw [same, fresh] at course
      rw [same]
      generalize h.output k = record at course ⊢
      cases course
      exact .unrun (.inl rfl)
    · exact course
  | @turn k m s a t stage _ turn stages =>
    rw [stages]
    split
    · next same =>
      subst same
      rw [stage] at course
      exact turn.output hr stage course
    · next other =>
      rw [adding_of_other step fun a same => other (by cases same; rfl)]
      exact course
  | beside noCall _ stages =>
    rw [adding_of_other step (noCall n), stages]
    exact course

variable (timeLimit : Span) (abortList : Option AbortList) (events : List RunnerEvent)

/-- **The course of the output of a call**, after every history. -/
theorem output_course (n : Nat) :
    OutputCourse (((Runner.start timeLimit abortList).history events).now.stage? n)
      (((Runner.start timeLimit abortList).history events).output n) :=
  induct_consistent timeLimit abortList events
    (P := fun h => OutputCourse (h.now.stage? n) (h.output n)) .absent
    fun _ _ _ _ hr course step => output_course_step hr course step

variable {timeLimit abortList events}

/-- **The output of a container that exits.** -/
theorem output_of_exited_container {n : Nat} {run : RunSpec} {host : ContainerHost} {rt : Runtime}
    {around : Circumstances} {cancelAt : Option Nat} {id : String} {outcome : Except RunError Bytes}
    (began : run ∈ (((Runner.start timeLimit abortList).history events).output n).begun)
    (exits : .logs id ∈ (ContainerRun.follow host rt run around cancelAt).word)
    (received : (ContainerRun.follow host rt run around cancelAt).received around = some outcome)
    (returned : outcome ∈ (((Runner.start timeLimit abortList).history events).output n).returned)
    (moved : ∀ job, ((Runner.start timeLimit abortList).history events).now.stage? n ≠
      some (.ended job outcome)) :
    Carried rt.logs run.checkId (((Runner.start timeLimit abortList).history events).output n) := by
  have result : outcome = rt.logs.collect.mapError (.logs run.checkId) := by
    have result := ContainerRun.result_of_exited exits
    unfold ContainerRun.received at received
    split at received
    · rw [received] at result
      exact Option.some.inj result
    · cases received
  have course := output_course timeLimit abortList events n
  generalize ((Runner.start timeLimit abortList).history events).output n = record at *
  generalize ((Runner.start timeLimit abortList).history events).now.stage? n = stage at *
  cases fault : rt.logs.fault? with
  | none =>
    rw [LogStream.collect_of_intact fault] at result
    subst result
    obtain ⟨uploaded, raw⟩ := course.of_ok began returned moved (by simp)
    refine ⟨fun _ => uploaded, fun _ => ?_, ?_, fun state mem url link => ?_⟩
    · rw [uploaded, List.singleton_inj, LogStream.joined_eq_newline_iff, LogStream.Wrote, not_or,
        not_not, not_not]
    · rw [fault]
      exact nofun
    · rw [uploaded]
      exact ⟨nofun, raw state mem url link⟩
  | some e =>
    rw [LogStream.collect, LogStream.collectFrom_of_fault fault] at result
    subst result
    obtain ⟨uploaded, final⟩ := course.of_error began returned moved
    refine ⟨?_, ?_, fun _ _ => ⟨uploaded, final⟩, fun state mem url link => ?_⟩
    · rw [fault]
      exact nofun
    · rw [fault]
      exact nofun
    · rw [final state mem] at link
      cases link

/-! ## A container that writes nothing -/

/-- A runtime whose container exits at once, after it has written some frames. -/
def writing (frames : LogStream) : Runtime where
  pull _ := ⟨0, .ok ()⟩
  create := ⟨0, .ok "id"⟩
  start := ⟨0, .ok ()⟩
  wait := ⟨1, .ok 0⟩
  stop := ⟨0, .ok ()⟩
  remove := ⟨0, .ok ()⟩
  logs := frames
  logsAfter := 0

def asked : RunSpec :=
  ⟨"c", ⟨"nmap", "1"⟩, "checks/nmap:1", "host", "", "", [], .ofSeconds 60⟩

/-- A call whose run returns a line feed, which is uploaded. -/
def blankReturned : List RunnerEvent := [
  .deliver 0 (.asking "m" "c"), .advance 0 .onward, .advance 0 .onward, .advance 0 (.accepted true),
  .advance 0 (.outcome (.ok ['\n'.toUInt8])), .advance 0 .onward, .advance 0 (.link (some "link"))]

/-- A container that writes nothing, and the call that runs it. -/
theorem carried_blank :
    asked ∈ (((Runner.start (.ofSeconds 60) none).history blankReturned).output 0).begun ∧
    .logs "id" ∈ (ContainerRun.follow ⟨"", [], none⟩ (writing []) asked .plain none).word ∧
    (ContainerRun.follow ⟨"", [], none⟩ (writing []) asked .plain none).received .plain =
      some (.ok ['\n'.toUInt8]) ∧
    .ok ['\n'.toUInt8] ∈
      (((Runner.start (.ofSeconds 60) none).history blankReturned).output 0).returned ∧
    Carried (writing []).logs "c"
      (((Runner.start (.ofSeconds 60) none).history blankReturned).output 0) := by
  have began :
      asked ∈ (((Runner.start (.ofSeconds 60) none).history blankReturned).output 0).begun := by
    decide +kernel
  have exits : .logs "id" ∈
      (ContainerRun.follow ⟨"", [], none⟩ (writing []) asked .plain none).word := by decide +kernel
  have received : (ContainerRun.follow ⟨"", [], none⟩ (writing []) asked .plain none).received
      .plain = some (.ok ['\n'.toUInt8]) := by decide +kernel
  have returned : .ok ['\n'.toUInt8] ∈
      (((Runner.start (.ofSeconds 60) none).history blankReturned).output 0).returned := by
    decide +kernel
  refine ⟨began, exits, received, returned, ?_⟩
  refine output_of_exited_container began exits received returned fun job ended => ?_
  have past : (((Runner.start (.ofSeconds 60) none).history blankReturned).now.stage? 0).bind
      (·.registered?) = none := by decide +kernel
  rw [ended] at past
  cases past

/-- The container has written nothing, and yet output is uploaded and the final state holds a
link. -/
theorem blank_output_uploaded :
    ¬ (writing []).logs.Wrote ∧
    .logs "id" ∈ (ContainerRun.follow ⟨"", [], none⟩ (writing []) asked .plain none).word ∧
    (ContainerRun.follow ⟨"", [], none⟩ (writing []) asked .plain none).received .plain =
      some (.ok ['\n'.toUInt8]) ∧
    (((Runner.start (.ofSeconds 60) none).history blankReturned).output 0).returned =
      [.ok ['\n'.toUInt8]] ∧
    (((Runner.start (.ofSeconds 60) none).history blankReturned).output 0).uploaded =
      [['\n'.toUInt8]] ∧
    (((Runner.start (.ofSeconds 60) none).history blankReturned).output 0).final =
      [{ CheckState.plain "c" .finished with raw := some "link" }] := by
  decide +kernel

end History

end CheckAgent
