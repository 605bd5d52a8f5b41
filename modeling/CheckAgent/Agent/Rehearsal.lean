import CheckAgent.Intake.Reader
import CheckAgent.Runner.Session
import CheckAgent.Shutdown

/-!
# Rehearsals

A rehearsal runs the reader and the runner together on a clock of milliseconds, with a source whose
answers are known in advance and partners as in a session. **The clock jumps** to the next thing
that happens: the end of a request for a message or of a pause, the end of a run, an action from
outside, or the reason to stop. At each instant everything that can go on does.

The reading is stopped at a given time, or by a coordinator that watches for a signal and for the
reader being idle.
-/

namespace CheckAgent

open CheckAgent.Text

inductive AgentAction where
  | abort (checkId : String)
  /-- Look at the agent. -/
  | look
  deriving DecidableEq, Repr

inductive StopRule where
  | at (time : Nat)
  | coordinated (maxIdle : Span) (signalAt : Option Nat)
  deriving DecidableEq, Repr

structure RehearsalScript where
  maxJobs : Nat
  timeLimit : Span
  /-- The pause before an empty queue is asked again, in milliseconds. -/
  pause : Nat
  /-- What the source answers, each after some milliseconds; then nothing, at once. -/
  source : List (Nat × Received)
  /-- Whether a message can be deleted. -/
  deletes : String → Bool
  partners : Partners
  /-- The longest that a run takes which is left alone. -/
  longestRun : Nat
  actions : List (Nat × AgentAction)
  stop : StopRule

/-- What a look at the agent shows. -/
structure AgentView where
  idle : Nat
  waitingForSlot : Bool
  running : Nat
  freeSlot : Bool
  deriving DecidableEq, Repr

/-- What became of an action. -/
inductive ActionResult where
  | aborted (ok : Bool)
  | view (v : AgentView)
  deriving DecidableEq, Repr

/-- A rehearsal under way. -/
structure Rehearsal where
  reader : Reader
  session : Session
  coordinator : Coordinator
  /-- The answers of the source that have not been asked for. -/
  source : List (Nat × Received)
  /-- The answer that has been asked for, when it comes, and whether it is one of the source's. -/
  asked : Option (Nat × Received × Bool)
  resting : Option Nat
  actions : List (Nat × AgentAction)
  /-- How often the source has been asked. -/
  asks : Nat
  /-- The answers of the source that came. -/
  received : List (Nat × Received)
  deletes : List (Nat × String × Bool)
  results : List (Nat × ActionResult)

namespace Rehearsal

def now (r : Rehearsal) : Nat := r.session.now

def start (script : RehearsalScript) : Rehearsal where
  reader := .start script.maxJobs
  session := .start script.timeLimit none
  coordinator := .start
  source := script.source
  asked := none
  resting := none
  actions := script.actions.mergeSort fun a b => decide (a.1 ≤ b.1)
  asks := 0
  received := []
  deletes := []
  results := []

def ask (r : Rehearsal) : Rehearsal :=
  match r.source with
  | (delay, what) :: rest =>
    { r with source := rest, asked := some (r.now + delay, what, true), asks := r.asks + 1 }
  | [] => { r with asked := some (r.now, .nothing, false), asks := r.asks + 1 }

/-- Give the reader an event, and the effects that are about messages. -/
def tell (r : Rehearsal) (event : ReaderEvent) : Rehearsal × List ReaderEffect :=
  match r.reader.step r.now event with
  | none => (r, [])
  | some (reader, effects) =>
    let r := { r with reader }
    (if .ask ∈ effects then r.ask else r, effects.filter (· ≠ .ask))

/-- Tell the reader what became of the message of a call that is over. -/
def dispose (script : RehearsalScript) (r : Rehearsal) (n : Nat) : Rehearsal :=
  match r.session.disposition? n with
  | none => r
  | some d =>
    match r.tell (.processed n d) with
    | (r, [.delete _ m]) =>
      ({ r with deletes := r.deletes ++ [(r.now, m.id, script.deletes m.id)] }.tell (.deleted n)).1
    | (r, _) => r

/-- Give the reader an answer of the source, and begin to deal with a message. -/
def takeIn (script : RehearsalScript) (r : Rehearsal) (what : Received) (scripted : Bool) :
    Rehearsal :=
  let r := if scripted then { r with received := r.received ++ [(r.now, what)] } else r
  match { r with asked := none }.tell (.received what) with
  | (r, [.process n m]) =>
    { r with session := r.session.deliver script.partners n m }.dispose script n
  | (r, _) =>
    if r.reader.phase = .pausing then { r with resting := some (r.now + script.pause) } else r

/-- Let everything go on that can at this instant, for at most `fuel` steps of the reader. -/
def flow (script : RehearsalScript) : Nat → Rehearsal → Rehearsal
  | 0, r => r
  | fuel + 1, r =>
    if r.reader.phase = .seeking then flow script fuel (r.tell .seek).1
    else
      match r.asked with
      | some (due, what, scripted) =>
        if due ≤ r.now then flow script fuel (r.takeIn script what scripted) else r
      | none => r

def cancelReading (r : Rehearsal) : Rehearsal :=
  { (r.tell .cancel).1 with asked := none, resting := none }

/-- Give the coordinator an event. Once the reading is cancelled the idle tracker ends. -/
def coordinate (r : Rehearsal) (event : StopEvent) : Rehearsal :=
  let (coordinator, actions) := r.coordinator.step event
  let r := { r with coordinator }
  if .cancelReading ∈ actions then
    let r := r.cancelReading
    { r with coordinator := (r.coordinator.step (.idleEnded .cancelled)).1 }
  else r

def act (script : RehearsalScript) (r : Rehearsal) : AgentAction → Rehearsal
  | .look =>
    let view : AgentView := {
      idle := r.now - r.reader.activity.last
      waitingForSlot := r.reader.activity.waitingForSlot
      running := r.session.runner.running
      freeSlot := r.reader.slots.tryTake.isSome }
    { r with results := r.results ++ [(r.now, .view view)] }
  | .abort checkId =>
    let owner := r.session.runner.registry.get? checkId
    match r.session.abort script.partners checkId with
    | .error _ => { r with results := r.results ++ [(r.now, .aborted false)] }
    | .ok session =>
      let r := { r with session, results := r.results ++ [(r.now, .aborted true)] }
      match owner with
      | some g => r.dispose script g.owner
      | none => r

/-- What may happen next. -/
inductive Due where
  | stop
  | idle (how : IdleEnd)
  | runEnd (call : Nat)
  | answer
  | rested
  | action

/-- Whether the reading has not been cancelled. -/
def reads (r : Rehearsal) : Bool := !r.reader.cancelled

/-- When the rehearsal is to be stopped. -/
def stopDue (script : RehearsalScript) (r : Rehearsal) : List (Nat × Due) :=
  if !r.reads then []
  else
    match script.stop with
    | .at time => [(time, .stop)]
    | .coordinated maxIdle signalAt =>
      (signalAt.map fun t => (t, Due.stop)).toList ++
      match r.coordinator.phase with
      | .watching =>
        ((Tracker.mk r.reader.activity false).due? maxIdle r.now).toList.map fun (t, how) =>
          (t, .idle how)
      | _ => []

/-- All that is due at some time. -/
def agenda (script : RehearsalScript) (r : Rehearsal) : List (Nat × Due) :=
  r.stopDue script ++
  (r.session.ends.entries.map fun (n, t) => (t, .runEnd n)) ++
  (r.asked.map fun (t, _) => (t, Due.answer)).toList ++
  (r.resting.map fun t => (t, Due.rested)).toList ++
  (r.actions.head?.map fun (t, _) => (t, Due.action)).toList

def first (agenda : List (Nat × Due)) : Option (Nat × Due) :=
  agenda.foldl
    (fun best d => match best with
      | none => some d
      | some b => if b.1 ≤ d.1 then some b else some d)
    none

def happen (script : RehearsalScript) (r : Rehearsal) : Due → Rehearsal
  | .stop =>
    match script.stop with
    | .at _ => r.cancelReading
    | .coordinated _ _ => r.coordinate .signal
  | .idle how => r.coordinate (.idleEnded how)
  | .runEnd n => { r with session := r.session.settle script.partners n }.dispose script n
  | .answer => r
  | .rested => { (r.tell .rested).1 with resting := none }
  | .action =>
    match r.actions with
    | (_, action) :: rest => { r with actions := rest }.act script action
    | [] => r

/-- The most steps that the reader can make at one instant. -/
def flowFuel (script : RehearsalScript) : Nat := 4 * script.source.length + 8

/-- Run a rehearsal for at most `fuel` things that happen, until the reader has ended. -/
def run (script : RehearsalScript) : Nat → Rehearsal → Rehearsal
  | 0, r => r
  | fuel + 1, r =>
    if r.reader.phase = .finished then r
    else
      match first (r.agenda script) with
      | none => r
      | some (t, due) =>
        let r := { r with session := { r.session with now := max r.now t } }
        run script fuel ((r.happen script due).flow script (flowFuel script))

/-- A time by which a rehearsal has been stopped. -/
def horizon (script : RehearsalScript) : Nat :=
  match script.stop with
  | .at time => time
  | .coordinated maxIdle signalAt =>
    signalAt.getD <|
      script.source.foldl (fun time e => time + e.1 + script.pause + script.longestRun)
        maxIdle.millisUp

/-- Rehearse. What is due at time zero comes first. -/
def rehearse (script : RehearsalScript) : Rehearsal :=
  let fuel := 4 * (horizon script + script.source.length + script.actions.length + 16)
  let r := start script
  let stopped := match first (r.stopDue script) with
    | some (0, due) => r.happen script due
    | _ => r
  run script fuel (stopped.flow script (flowFuel script))

/-- How a coordinated rehearsal ends, with a listener that stops cleanly. -/
def result? (r : Rehearsal) : Option (Except ShutdownError StopReason) :=
  let (c, _) := r.coordinator.step (.readerEnded .drained)
  (c.step (.listenerEnded .clean)).1.result?

end Rehearsal

end CheckAgent
