import CheckAgent.Runner.Call
import CheckAgent.Table

/-!
# The runner

The runner turns messages into runs of checks. It keeps **a registry of the checks that run**, so
that a check is aborted or reports about itself while it runs and at no other time, and so that a
message that comes again while its check runs starts no second run.

`Runner.step` is the machine: calls, aborts and callbacks go on side by side, and each event is one
step of one of them. A callback is taken in first and forwarded later. What others see of a step
are its effects.
-/

namespace CheckAgent

open CheckAgent.Text

/-- A registered check: the call that runs it, and the last final status that it reported. -/
structure Registration where
  owner : Nat
  reported : Option Status
  deriving DecidableEq, Repr

/-- How far a callback is. -/
inductive CallbackStage where
  | recorded
  | forwarded
  | answered (ok : Bool)
  deriving DecidableEq, Repr

/-- What a running check reported about itself. -/
structure Callback where
  state : CheckState
  stage : CallbackStage
  deriving DecidableEq, Repr

/-- The runner. Calls and callbacks are known by numbers. -/
structure Runner where
  timeLimit : Span
  abortList : Option AbortList
  registry : Table String Registration
  /-- Whether all runs are to stop. -/
  stopping : Bool
  calls : Table Nat Call
  callbacks : Table Nat Callback

/-- What others see. -/
inductive Effect where
  /-- A call sends a state. -/
  | sent (call : Nat) (state : CheckState)
  /-- A callback is forwarded. -/
  | forwarded (callback : Nat) (state : CheckState)
  /-- A run begins. -/
  | started (call : Nat) (run : RunSpec)
  /-- The output of a run is sent. -/
  | uploaded (call : Nat) (checkId : String) (startTime : Instant) (output : Bytes)

inductive RunnerEvent where
  | deliver (call : Nat) (message : Message)
  | advance (call : Nat) (answer : Answer)
  | abort (checkId : String)
  | stopAll
  | report (callback : Nat) (state : CheckState)
  | forward (callback : Nat)
  | answer (callback : Nat) (ok : Bool)

namespace Runner

def start (timeLimit : Span) (abortList : Option AbortList) : Runner where
  timeLimit
  abortList
  registry := .empty
  stopping := false
  calls := .empty
  callbacks := .empty

/-- The number of checks that run. -/
def running (r : Runner) : Nat := r.registry.size

/-- Whether a run is to stop: an abort reached it, or all runs are to stop. -/
def isFired (r : Runner) (c : Call) : Bool := r.stopping || c.aborted

def move (r : Runner) (n : Nat) (stage : Stage) : Runner :=
  { r with calls := r.calls.modify n fun c => { c with stage } }

/-- Move a call to its last report. -/
def conclude (r : Runner) (n : Nat) (state : CheckState) : Runner × List Effect :=
  (r.move n (.concluding state), [.sent n state])

/-- Begin to deal with a message: read the job. -/
def read (r : Runner) (n : Nat) (body : String) : Runner :=
  match Job.decode body with
  | .error _ => r.move n (.done .delete)
  | .ok job =>
    r.move n <| if r.abortList.isSome then .lookingUp job .checking else .admitted job

/-- Register the check of a call and report that it runs, unless it runs already. -/
def register (r : Runner) (n : Nat) (job : Job) : Runner × List Effect :=
  if r.registry.contains job.checkId then (r.move n (.done .delete), [])
  else
    ({ r.move n (.announcing job) with registry := r.registry.set job.checkId ⟨n, none⟩ },
      [.sent n (.plain job.checkId .running)])

/-- Take a check whose run has ended out of the registry, and upload the output or report. -/
def unregister (r : Runner) (n : Nat) (job : Job) (outcome : Except RunError Bytes) :
    Runner × List Effect :=
  let reported := (r.registry.get? job.checkId).bind (·.reported)
  let r := { r with registry := r.registry.erase job.checkId }
  match outcome with
  | .error e => r.conclude n (.plain job.checkId e.status)
  | .ok output =>
    let status := reported.getD .finished
    if output.isEmpty then r.conclude n (.plain job.checkId status)
    else
      (r.move n (.uploading job status), [.uploaded n job.checkId job.startTime output])

/-- Go on with a lookup. -/
def advanceLookup (r : Runner) (n : Nat) (job : Job) (list : AbortList) (lookup : Lookup)
    (answer : Answer) : Option (Runner × List Effect) :=
  match lookup, answer with
  | .checking, .onward => some (r.move n (.lookingUp job (list.check job.checkId)), [])
  | .requesting attempt, .exchange x chance =>
    some (r.move n (.lookingUp job (list.answer attempt x chance)), [])
  | .resting attempt _, .rested => some (r.move n (.lookingUp job (.requesting attempt)), [])
  | .storing fetched, .onward =>
    let (list, lookup) := list.store job.checkId fetched
    some ({ r.move n (.lookingUp job lookup) with abortList := some list }, [])
  | .found true, .onward => some (r.conclude n (.plain job.checkId .aborted))
  | .found false, .onward => some (r.move n (.admitted job), [])
  | .failed _, .onward => some (r.move n (.done .keep), [])
  | .broken _, .onward => some (r.move n .broken, [])
  | _, _ => none

/-- Go on with a call that has an answer; nothing if it is not the answer it waits for. -/
def advance (r : Runner) (n : Nat) (answer : Answer) : Option (Runner × List Effect) := do
  let c ← r.calls.get? n
  match c.stage, answer with
  | .received, .onward => some (r.read n c.message.body, [])
  | .lookingUp job lookup, answer =>
    match r.abortList with
    | some list => r.advanceLookup n job list lookup answer
    | none => none
  | .admitted job, .onward => some (r.register n job)
  | .announcing job, .accepted _ =>
    some (r.move n (.running job), [.started n (.ofJob job r.timeLimit)])
  | .running job, .outcome outcome => some (r.move n (.ended job outcome), [])
  | .ended job outcome, .onward => some (r.unregister n job outcome)
  | .uploading job status, .link url =>
    some (r.conclude n { CheckState.plain job.checkId status with raw := url })
  | .concluding _, .accepted ok => some (r.move n (.done (if ok then .delete else .keep)), [])
  | _, _ => none

def abort (r : Runner) (checkId : String) : Except JobError Runner :=
  match r.registry.get? checkId with
  | none => .error (.notRunning checkId)
  | some g => .ok { r with calls := r.calls.modify g.owner fun c => { c with aborted := true } }

/-- Take in what a running check reports about itself. A final status is remembered. -/
def report (r : Runner) (n : Nat) (state : CheckState) : Except JobError Runner :=
  if r.registry.contains state.checkId then
    .ok { r with
      registry := r.registry.modify state.checkId fun g =>
        if state.status.isFinal then { g with reported := some state.status } else g
      callbacks := r.callbacks.set n ⟨state, .recorded⟩ }
  else .error (.notRunning state.checkId)

/-- Take in a new message. -/
def deliver (r : Runner) (n : Nat) (message : Message) : Runner :=
  { r with calls := r.calls.set n ⟨message, .received, false⟩ }

/-- What an event makes of the runner, and its effects; nothing if it cannot happen. An abort or a
callback for a check that does not run changes nothing. -/
def step (r : Runner) : RunnerEvent → Option (Runner × List Effect)
  | .deliver n message => if r.calls.contains n then none else some (r.deliver n message, [])
  | .advance n answer => r.advance n answer
  | .abort checkId => some ((r.abort checkId).toOption.getD r, [])
  | .stopAll => some ({ r with stopping := true }, [])
  | .report n state =>
    if r.callbacks.contains n then none else some ((r.report n state).toOption.getD r, [])
  | .forward n =>
    match r.callbacks.get? n with
    | some ⟨state, .recorded⟩ =>
      some ({ r with callbacks := r.callbacks.set n ⟨state, .forwarded⟩ }, [.forwarded n state])
    | _ => none
  | .answer n ok =>
    match r.callbacks.get? n with
    | some ⟨state, .forwarded⟩ =>
      some ({ r with callbacks := r.callbacks.set n ⟨state, .answered ok⟩ }, [])
    | _ => none

end Runner

end CheckAgent
