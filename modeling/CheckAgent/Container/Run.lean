import CheckAgent.Container.Logs
import CheckAgent.Container.Spec
import CheckAgent.Retry.Retryer
import CheckAgent.Run.Error

/-!
# The life of a container

One run of a check makes a container, starts it, waits for it, reads its output and removes it.
`ContainerRun.follow` gives **the course of a run** on a clock: the calls of the container runtime
with their times, when the run ended, and its result. The runtime is described by how long each of
its calls takes and what it answers, in `Runtime`. What else bears on a run, such as the order of
things that fall on one instant, is in `Circumstances`.

**Cancellation** is looked at in two places. Up to the moment at which a container would be made
it ends the run at once, also in the middle of a pull. Later it is looked at only while the
container is waited for, and then it stops the container, as the time limit does.

**Removal.** Whatever happens to a container, removing it is the last call. A failure to stop or
to remove changes nothing.

**No result** comes of a run that breaks down, because the delay before a pull is repeated cannot be
computed. Whoever waits for the result learns only that there is none.
-/

namespace CheckAgent

open CheckAgent.Text

/-- A call of the container runtime. -/
inductive RuntimeCall where
  | pull (image : String)
  | create (name : String) (spec : ContainerSpec)
  | start (id : String)
  | wait (id : String)
  | stop (id : String) (grace : Span)
  | logs (id : String)
  | remove (id : String) (force : Bool)
  deriving DecidableEq, Repr

/-- What a call gives, and after how many milliseconds. -/
structure Reply (α : Type) where
  after : Nat
  outcome : Except ContainerError α

/-- How a container runtime behaves during one run. -/
structure Runtime where
  /-- The answers to the pulls, the first one being number zero. -/
  pull : Nat → Reply Unit
  create : Reply String
  start : Reply Unit
  /-- The answer to a wait holds the exit code of the container. -/
  wait : Reply Int
  stop : Reply Unit
  remove : Reply Unit
  logs : LogStream
  /-- How long it takes to read the output. -/
  logsAfter : Nat

/-- The course of a run. There is no result if the run broke down. -/
structure ContainerRun where
  calls : List (Nat × RuntimeCall)
  ended : Nat
  result : Option (Except RunError Bytes)

/-- What a run is made with, besides its specification. -/
structure ContainerHost where
  agentAddress : String
  vars : Vars
  /-- With a registry, images are pulled first, and pulls are retried. -/
  pulls : Option Retryer

/-- What ends the wait for a container. -/
inductive WaitEnd where
  | returned
  | cancelled
  | timedOut
  deriving DecidableEq, Repr

namespace WaitEnd

/-- The ends of a wait in turn, from one of them on. -/
def turns : WaitEnd → List WaitEnd
  | .returned => [.returned, .cancelled, .timedOut]
  | .cancelled => [.cancelled, .timedOut, .returned]
  | .timedOut => [.timedOut, .returned, .cancelled]

end WaitEnd

/-- A wait for a container: when it begins, how long the container runs and how long it may run, and
when the run is cancelled. -/
structure Wait where
  began : Nat
  duration : Nat
  limit : Nat
  cancelAt : Option Nat

namespace Wait

/-- When an end is due. A cancellation may have come before the wait. -/
def due (w : Wait) : WaitEnd → Option Nat
  | .returned => some (w.began + w.duration)
  | .cancelled => w.cancelAt.map (max w.began)
  | .timedOut => some (w.began + w.limit)

/-- The instant at which the first end is due. -/
def instant (w : Wait) : Nat :=
  let own := w.began + min w.duration w.limit
  (w.due .cancelled).elim own (min own)

/-- What ends the wait if the ends that are due are looked at in turn. -/
def ending (w : Wait) (first : WaitEnd) : WaitEnd :=
  (first.turns.find? fun e => (w.due e).any (· ≤ w.instant)).getD .returned

/-- Whether the runtime is asked to wait. It is not if another end is due at once and is looked at
before. -/
def isAsked (w : Wait) (first : WaitEnd) : Bool :=
  w.began < w.instant || first.turns.idxOf .returned ≤ first.turns.idxOf (w.ending first)

end Wait

/-- What bears on a run besides the container runtime. -/
structure Circumstances where
  /-- The time that a wait of a span takes. -/
  clock : Span → Nat
  /-- The chance after each pull. -/
  chance : Nat → Chance
  /-- Whether a cancellation on the instant at which pulls end or a container is made comes too
  late. -/
  cancelledLate : Bool
  /-- What a wait for a container looks at first. -/
  looksFirst : WaitEnd
  /-- Whether somebody waits for the result. -/
  listens : Bool

namespace Circumstances

/-- Waits take whole milliseconds, no delay is moved, and a cancellation is looked at first. -/
def plain : Circumstances where
  clock := Span.millisUp
  chance _ := .plain
  cancelledLate := false
  looksFirst := .cancelled
  listens := true

/-- Whether a cancellation comes before what else falls on an instant. -/
def isCancelled (around : Circumstances) (cancelAt : Option Nat) (t : Nat) : Bool :=
  cancelAt.any fun c => if around.cancelledLate then c < t else c ≤ t

/-- Whether something begins before a cancellation. -/
def beginsBefore (around : Circumstances) (c t : Nat) : Bool :=
  if around.cancelledLate then t ≤ c else t < c

end Circumstances

namespace ContainerRun

/-- How long a container that is stopped may take to end by itself. -/
def grace : Span := .ofSeconds 5

def after (time : Nat) (call : RuntimeCall) (r : ContainerRun) : ContainerRun :=
  { r with calls := (time, call) :: r.calls }

def pullCalls (run : RunSpec) (starts : List Nat) : List (Nat × RuntimeCall) :=
  starts.map fun t => (t, .pull run.image)

def behind (calls : List (Nat × RuntimeCall)) (r : ContainerRun) : ContainerRun :=
  { r with calls := calls ++ r.calls }

/-- Remove the container, which ends the run. -/
def removing (rt : Runtime) (id : String) (t : Nat) (result : Except RunError Bytes) :
    ContainerRun :=
  ⟨[(t, .remove id true)], t + rt.remove.after, some result⟩

/-- Stop the container for a reason. -/
def stopping (rt : Runtime) (id : String) (t : Nat) (reason : RunError) : ContainerRun :=
  (removing rt id (t + rt.stop.after) (.error reason)).after t (.stop id grace)

def reading (rt : Runtime) (checkId id : String) (t : Nat) : ContainerRun :=
  (removing rt id (t + rt.logsAfter) (rt.logs.collect.mapError (.logs checkId))).after t (.logs id)

/-- What follows the end of a wait. -/
def waited (rt : Runtime) (run : RunSpec) (id : String) (t : Nat) : WaitEnd → ContainerRun
  | .returned =>
    match rt.wait.outcome with
    | .ok _ => reading rt run.checkId id t
    | .error e => removing rt id t (.error (.wait run.checkId e))
  | .cancelled => stopping rt id t (.cancelled run.checkId)
  | .timedOut => stopping rt id t (.timeout run.checkId run.timeLimit)

/-- Wait for the container, which started at `s`. -/
def waiting (rt : Runtime) (run : RunSpec) (around : Circumstances) (cancelAt : Option Nat)
    (id : String) (s : Nat) : ContainerRun :=
  let wait : Wait := ⟨s, rt.wait.after, around.clock run.timeLimit, cancelAt⟩
  let rest := waited rt run id wait.instant (wait.ending around.looksFirst)
  if wait.isAsked around.looksFirst then rest.after s (.wait id) else rest

def starting (rt : Runtime) (run : RunSpec) (around : Circumstances) (cancelAt : Option Nat)
    (id : String) (t : Nat) : ContainerRun :=
  let s := t + rt.start.after
  let rest :=
    match rt.start.outcome with
    | .error e => removing rt id s (.error (.start run.checkId e))
    | .ok () => waiting rt run around cancelAt id s
  rest.after t (.start id)

/-- Make the container, unless the run is cancelled already. -/
def creating (host : ContainerHost) (rt : Runtime) (run : RunSpec) (around : Circumstances)
    (cancelAt : Option Nat) (t : Nat) : ContainerRun :=
  if around.isCancelled cancelAt t then ⟨[], t, some (.error (.cancelled run.checkId))⟩
  else
    let spec := ContainerSpec.ofRun run host.agentAddress host.vars
    let made := t + rt.create.after
    let rest : ContainerRun :=
      match rt.create.outcome with
      | .error e => ⟨[], made, some (.error (.create run.checkId e))⟩
      | .ok id => starting rt run around cancelAt id made
    rest.after t (.create run.checkId spec)

/-- The pulls of an image, as they would go on without a cancellation. -/
def pulls (rt : Runtime) (around : Circumstances) (retryer : Retryer) :
    Course ContainerError Unit :=
  retryer.run around.clock ContainerError.kind (fun i => ((rt.pull i).after, (rt.pull i).outcome))
    around.chance none

/-- Pull the image, and go on when it is there. -/
def pulling (host : ContainerHost) (rt : Runtime) (run : RunSpec) (around : Circumstances)
    (cancelAt : Option Nat) (retryer : Retryer) : ContainerRun :=
  let pulls := pulls rt around retryer
  match cancelAt.filter fun c => around.isCancelled (some c) pulls.ended with
  | some c =>
    ⟨pullCalls run (pulls.starts.filter (around.beginsBefore c)), c,
      some (.error (.cancelled run.checkId))⟩
  | none =>
    match pulls.ending with
    | .failed e =>
      ⟨pullCalls run pulls.starts, pulls.ended, some (.error (.pull run.checkId run.image e))⟩
    | .fault _ => ⟨pullCalls run pulls.starts, pulls.ended, none⟩
    | .done () =>
      (creating host rt run around cancelAt pulls.ended).behind (pullCalls run pulls.starts)

/-- The course of a run that begins at time zero and may be cancelled. -/
def follow (host : ContainerHost) (rt : Runtime) (run : RunSpec) (around : Circumstances)
    (cancelAt : Option Nat) : ContainerRun :=
  match host.pulls with
  | some retryer => pulling host rt run around cancelAt retryer
  | none => creating host rt run around cancelAt 0

/-- What whoever asked for the run receives, unless it comes to nothing. -/
def received (c : ContainerRun) (around : Circumstances) : Option (Except RunError Bytes) :=
  if around.listens then c.result else none

end ContainerRun

end CheckAgent
