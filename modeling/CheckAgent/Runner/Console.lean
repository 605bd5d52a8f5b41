import CheckAgent.Runner.Session

/-!
# Driving a runner by hand

A console is a session with **slots and an activity record** beside it, driven step by step. After
each step every call has settled.
-/

namespace CheckAgent

open CheckAgent.Text

inductive ConsoleStep where
  | deliver (message : Message)
  /-- The run of a check ends. -/
  | complete (checkId : String) (outcome : Except RunError Bytes)
  | abort (checkId : String)
  | stopAll
  | report (state : CheckState)
  /-- Take a slot that is free now, and keep it. -/
  | tryTake
  /-- Stand in line for a slot, and keep it. -/
  | take
  /-- Give back a slot that is kept. -/
  | giveBack
  /-- Ask whether all slots could be had at once. -/
  | isIdle
  | touch
  | advance (millis : Nat)
  | request (request : ApiRequest)

inductive StepResult where
  | nothing
  | flag (b : Bool)
  | noSuchRun
  | done
  | failed (error : AgentError)
  | answer (answer : ApiAnswer)

structure Console where
  session : Session
  slots : Slots
  activity : Activity
  /-- The slots that are kept. -/
  held : Nat
  /-- The number of the next call, callback or request for a slot. -/
  next : Nat

namespace Console

def start (maxJobs : Nat) (timeLimit : Span) (abortList : Option AbortList) : Console :=
  ⟨.start timeLimit abortList, .ofCapacity maxJobs, .touched 0, 0, 0⟩

def serve (p : Partners) (k : Console) (request : ApiRequest) : Console × StepResult :=
  let context := ServeContext.ofAgent k.slots k.activity k.session.now p.refusal
  let served := k.session.runner.serve k.next context request
  let session := { k.session with runner := served.runner }.noteSent served.sent
  let session := match Api.read request with
    | .ok (.abort checkId) =>
      match session.runner.registry.get? checkId with
      | some g => session.settle p g.owner
      | none => session
    | _ => session
  ({ k with session, next := k.next + 1 }, .answer served.answer)

/-- Give back a slot that is kept. Those in line who get slots keep them. -/
def giveBack (k : Console) : Console × StepResult :=
  if k.held = 0 then (k, .flag false)
  else
    let (slots, met) := k.slots.release 1
    ({ k with slots, held := k.held - 1 + met.length }, .flag true)

def step (p : Partners) (k : Console) : ConsoleStep → Console × StepResult
  | .deliver message =>
    ({ k with session := k.session.deliver p k.next message, next := k.next + 1 }, .nothing)
  | .complete checkId outcome =>
    let completed := do
      let (n, c) ← k.session.runOf? checkId
      let session ← k.session.answer p n c (.outcome outcome)
      pure (session.settle p n)
    match completed with
    | some session => ({ k with session }, .flag true)
    | none => (k, .noSuchRun)
  | .abort checkId =>
    match k.session.abort p checkId with
    | .ok session => ({ k with session }, .done)
    | .error e => (k, .failed (.job e))
  | .stopAll => ({ k with session := k.session.stopAll p }, .nothing)
  | .report state =>
    let reported := k.session.runner.reportAndForward k.next p.refusal state
    let session := { k.session with runner := reported.runner }.noteSent reported.sent
    let result := match reported.result with
      | .ok () => .done
      | .error e => .failed e
    ({ k with session, next := k.next + 1 }, result)
  | .tryTake =>
    match k.slots.tryTake with
    | some slots => ({ k with slots, held := k.held + 1 }, .flag true)
    | none => (k, .flag false)
  | .take =>
    let (slots, met) := k.slots.request k.next 1
    ({ k with slots, next := k.next + 1, held := if met then k.held + 1 else k.held }, .nothing)
  | .giveBack => k.giveBack
  | .isIdle => (k, .flag k.slots.isIdle)
  | .touch => ({ k with activity := .touched k.session.now }, .nothing)
  | .advance millis =>
    ({ k with session := { k.session with now := k.session.now + millis } }, .nothing)
  | .request request => k.serve p request

/-- Do a step with no notes but its own. -/
def stepNoting (p : Partners) (k : Console) (step : ConsoleStep) : Console × StepResult :=
  { k with session := { k.session with notes := [] } }.step p step

end Console

end CheckAgent
