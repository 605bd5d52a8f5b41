import CheckAgent.Agent.Error
import CheckAgent.Intake.Idle

/-!
# Shutdown

The agent stops **on a signal or when the reader has been idle for long enough**, whichever comes
first. Then the reading of the queue is cancelled, once; the idle tracker ends, and the reader when
every check that it has read is done; and only then is the listener asked to stop. A tracker that
ends in another way is no reason to stop, and nothing that the tracker or the reader do changes the
result: it is an error exactly if the listener did not stop cleanly.

`Coordinator.step` is the machine. `ShutdownCourse.follow` runs it on a clock against tasks whose
ends are given.
-/

namespace CheckAgent

/-- Why the agent stops. -/
inductive StopReason where
  | signal
  | idle
  deriving DecidableEq, Repr

/-- How the reader of the queue ends. -/
inductive ReaderEnd where
  | drained
  | failed (error : QueueError)
  | broken
  deriving DecidableEq, Repr

/-- How the listener ends that was asked to stop. -/
inductive ListenerEnd where
  | clean
  | unclean (error : ShutdownError)
  deriving DecidableEq, Repr

/-- Where the coordinator is. -/
inductive StopPhase where
  /-- Nothing has happened yet. -/
  | watching
  /-- The tracker ended without being a reason to stop. -/
  | awaitingSignal
  | drainingIdle (reason : StopReason)
  | drainingReader (reason : StopReason)
  | closing (reason : StopReason)
  | stopped (reason : StopReason) (listener : ListenerEnd)
  deriving DecidableEq, Repr

/-- What the coordinator takes notice of. -/
inductive StopEvent where
  | signal
  | idleEnded (how : IdleEnd)
  | readerEnded (how : ReaderEnd)
  | listenerEnded (how : ListenerEnd)
  deriving DecidableEq, Repr

/-- What the coordinator does. -/
inductive StopAction where
  | cancelReading
  | stopListener
  deriving DecidableEq, Repr

/-- The coordinator. A reader may end before anybody waits for it. -/
structure Coordinator where
  phase : StopPhase
  readerEnded : Bool
  deriving DecidableEq, Repr

namespace Coordinator

def start : Coordinator := ⟨.watching, false⟩

/-- Wait for the reader, and ask the listener to stop if the reader has ended. -/
def drainReader (c : Coordinator) (reason : StopReason) : Coordinator × List StopAction :=
  if c.readerEnded then ({ c with phase := .closing reason }, [.stopListener])
  else ({ c with phase := .drainingReader reason }, [])

/-- What happens next, and what is done about it. -/
def step (c : Coordinator) : StopEvent → Coordinator × List StopAction
  | .signal =>
    match c.phase with
    | .watching => ({ c with phase := .drainingIdle .signal }, [.cancelReading])
    | .awaitingSignal =>
      let (next, actions) := c.drainReader .signal
      (next, .cancelReading :: actions)
    | _ => (c, [])
  | .idleEnded how =>
    match c.phase with
    | .watching =>
      if how = .idle then
        let (next, actions) := c.drainReader .idle
        (next, .cancelReading :: actions)
      else ({ c with phase := .awaitingSignal }, [])
    | .drainingIdle reason => c.drainReader reason
    | _ => (c, [])
  | .readerEnded _ =>
    let c := { c with readerEnded := true }
    match c.phase with
    | .drainingReader reason => c.drainReader reason
    | _ => (c, [])
  | .listenerEnded how =>
    match c.phase with
    | .closing reason => ({ c with phase := .stopped reason how }, [])
    | _ => (c, [])

/-- How the agent stopped, if it has. -/
def result? (c : Coordinator) : Option (Except ShutdownError StopReason) :=
  match c.phase with
  | .stopped reason .clean => some (.ok reason)
  | .stopped _ (.unclean e) => some (.error e)
  | _ => none

end Coordinator

/-- A task that ends some time after it begins, or after the reading is cancelled. -/
structure StopTask (α : Type) where
  untilCancel : Bool
  delay : Nat
  outcome : α

/-- The tasks and the signal that a coordinator deals with. The delay of the listener counts from
when it is asked to stop. -/
structure StopScript where
  signalAt : Option Nat
  idle : StopTask IdleEnd
  reader : StopTask ReaderEnd
  listener : Nat × ListenerEnd
  /-- How long the listener may take. -/
  patience : Span

/-- How a shutdown went: the events that the tasks leave behind, and the end. -/
structure ShutdownCourse where
  idleAt : Option Nat
  cancelledAt : Option Nat
  readerAt : Option Nat
  stopAskedAt : Option Nat
  ended : Option (Nat × Except ShutdownError StopReason)

namespace ShutdownCourse

/-- When a task ends, knowing when the reading was cancelled. -/
def taskEnd {α : Type} (task : StopTask α) (cancelledAt : Option Nat) : Option Nat :=
  if task.untilCancel then cancelledAt.map (· + task.delay) else some task.delay

/-- The first of some events that have times. -/
def earliest (events : List (Option Nat × StopEvent)) : Option (Nat × StopEvent) :=
  events.foldl
    (fun best (t, event) =>
      match t, best with
      | none, _ => best
      | some t, some b => if b.1 ≤ t then some b else some (t, event)
      | some t, none => some (t, event))
    none

/-- The end of a listener that was asked to stop at a time. -/
def listenerEnd (script : StopScript) (asked : Nat) : Nat × StopEvent :=
  let (delay, how) := script.listener
  let limit := script.patience.millisUp
  if delay ≤ limit then (asked + delay, .listenerEnded how)
  else (asked + limit, .listenerEnded (.unclean (.listenerTimeout script.patience)))

/-- The events that have not happened yet. -/
def pending (script : StopScript) (signalled : Bool) (r : ShutdownCourse) :
    List (Option Nat × StopEvent) :=
  (if signalled then [] else [(script.signalAt, .signal)]) ++
  (if r.idleAt.isSome then []
    else [(taskEnd script.idle r.cancelledAt, .idleEnded script.idle.outcome)]) ++
  (if r.readerAt.isSome then []
    else [(taskEnd script.reader r.cancelledAt, .readerEnded script.reader.outcome)]) ++
  (match r.stopAskedAt with
    | some asked => let (t, event) := listenerEnd script asked; [(some t, event)]
    | none => [])

def note (r : ShutdownCourse) (t : Nat) : StopEvent → ShutdownCourse
  | .idleEnded _ => { r with idleAt := some t }
  | .readerEnded _ => { r with readerAt := some t }
  | .signal | .listenerEnded _ => r

def act (t : Nat) (r : ShutdownCourse) : StopAction → ShutdownCourse
  | .cancelReading => { r with cancelledAt := some t }
  | .stopListener => { r with stopAskedAt := some t }

/-- Run the machine for at most `fuel` events. -/
def run (script : StopScript) :
    Nat → Coordinator → (signalled : Bool) → ShutdownCourse → ShutdownCourse
  | 0, _, _, r => r
  | fuel + 1, c, signalled, r =>
    match earliest (pending script signalled r) with
    | none => r
    | some (t, event) =>
      let (next, actions) := c.step event
      let r := actions.foldl (act t) (r.note t event)
      match next.result? with
      | some result => { r with ended := some (t, result) }
      | none => run script fuel next (signalled || event == .signal) r

/-- The course of a shutdown. Each of the four events happens once. -/
def follow (script : StopScript) : ShutdownCourse :=
  run script 4 .start false ⟨none, none, none, none, none⟩

end ShutdownCourse

end CheckAgent
