import CheckAgent.Api
import CheckAgent.Intake.Activity
import CheckAgent.Runner.Basic
import CheckAgent.Slots

/-!
# Serving requests

What the API does to the runner. **An update** is a callback: it is taken in, forwarded, and
answered by whether it was accepted. **An abort** fires the run of the check. Every other request
leaves the runner as it is.
-/

namespace CheckAgent

/-- What is known of the agent besides its runner when a request comes. -/
structure ServeContext where
  /-- The number of slots. -/
  capacity : Nat
  secondsSinceLast : Nat
  /-- What the state service says to a state that it does not accept. -/
  refusal : CheckState → Option ReportError

/-- What is known of an agent at a time by its slots and by the record of its reader. -/
def ServeContext.ofAgent (slots : Slots) (activity : Activity) (now : Nat)
    (refusal : CheckState → Option ReportError) : ServeContext :=
  ⟨slots.capacity, activity.secondsSince now, refusal⟩

/-- A runner after something was reported to it: the states that were sent, each with what was said
to it, and how it ended. -/
structure Reported where
  runner : Runner
  sent : List (CheckState × Option ReportError)
  result : Except AgentError Unit

/-- A runner after a request: the answer, and the states that were sent. -/
structure Served where
  runner : Runner
  sent : List (CheckState × Option ReportError)
  answer : ApiAnswer

namespace Runner

/-- Take in what a check reports about itself as callback `n`, and forward it. -/
def reportAndForward (r : Runner) (n : Nat) (refusal : CheckState → Option ReportError)
    (state : CheckState) : Reported :=
  match r.report n state with
  | .error e => ⟨r, [], .error (.job e)⟩
  | .ok r =>
    let said := refusal state
    let r := { r with callbacks := r.callbacks.set n ⟨state, .answered said.isNone⟩ }
    ⟨r, [(state, said)], match said with
      | none => .ok ()
      | some e => .error (.report e)⟩

/-- Do what a request asks for. -/
def serveCall (r : Runner) (n : Nat) (c : ServeContext) : ApiCall → Served
  | .health => ⟨r, [], .health⟩
  | .stats => ⟨r, [], .stats r.running c.capacity c.secondsSinceLast⟩
  | .update id update =>
    let reported := r.reportAndForward n c.refusal ⟨id, update.status, update.progress, none⟩
    let answer :=
      match reported.result with
      | .ok () => .updated
      | .error (.job (.notRunning _)) => .notRunning id
      | .error e => .notForwarded e.message
    ⟨reported.runner, reported.sent, answer⟩
  | .abort id =>
    match r.abort id with
    | .ok r => ⟨r, [], .aborting⟩
    | .error _ => ⟨r, [], .notRunning id⟩

/-- Serve a request, which may become callback `n`. -/
def serve (r : Runner) (n : Nat) (c : ServeContext) (request : ApiRequest) : Served :=
  match Api.read request with
  | .error answer => ⟨r, [], answer.forMethod request.method⟩
  | .ok call =>
    let served := r.serveCall n c call
    { served with answer := served.answer.forMethod request.method }

end Runner

end CheckAgent
