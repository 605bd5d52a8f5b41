import CheckAgent.Runner.Serve

/-!
# Sessions

A session lets the calls of a runner go on with **partners whose answers are known**: which states
are accepted, where output goes, what the service of aborted checks says, how long a run takes and
how it ends, and whether it ends when it is cancelled. A call that settles goes on until it is over
or waits for its run.

Of the runs that end when all runs are to stop, the youngest comes first; a run that has ended
leaves its place in that order to the youngest.
-/

namespace CheckAgent

open CheckAgent.Text

/-- Those who answer the runner. -/
structure Partners where
  refusal : CheckState → Option ReportError
  /-- The link to the output of a check, if it is accepted. -/
  link : String → Option String
  service : Service
  /-- How many milliseconds a run takes that is left alone, and how it ends. -/
  run : RunSpec → Option (Nat × Except RunError Bytes)
  /-- Whether a run ends when it is cancelled. -/
  reacts : Bool

/-- What is seen of a session. -/
inductive SessionNote where
  | state (state : CheckState) (accepted : Bool)
  | started (run : RunSpec)
  | ended (checkId : String)
  | upload (checkId : String) (startTime : Instant) (output : Bytes) (accepted : Bool)
  | disposed (messageId : String) (disposition : Disposition)

/-- The check that a note is about; none for what becomes of a message. -/
def SessionNote.checkId : SessionNote → String
  | .state s _ => s.checkId
  | .started r => r.checkId
  | .ended c => c
  | .upload c _ _ _ => c
  | .disposed _ _ => ""

structure Session where
  runner : Runner
  now : Nat
  /-- The calls whose runs can be cancelled, the order of cancellation being from the back. -/
  live : List Nat
  /-- When the runs under way end if they are left alone. -/
  ends : Table Nat Nat
  /-- The requests that have been sent to the service of aborted checks. -/
  sent : Nat
  /-- What has been seen, with its time. -/
  notes : List (Nat × SessionNote)

/-- Remove an element if it is there; the last one takes its place. -/
def swapRemove (l : List Nat) (n : Nat) : List Nat :=
  if n ∈ l then (l.dropLast).map fun x => if x = n then l.getLast?.getD n else x else l

namespace Session

def start (timeLimit : Span) (abortList : Option AbortList) : Session where
  runner := .start timeLimit abortList
  now := 0
  live := []
  ends := .empty
  sent := 0
  notes := []

def note (s : Session) (n : SessionNote) : Session := { s with notes := s.notes ++ [(s.now, n)] }

/-- How the run of a call ends now, if it does. -/
def endingOf (p : Partners) (s : Session) (n : Nat) (c : Call) (job : Job) :
    Option (Except RunError Bytes) :=
  if s.runner.isFired c && p.reacts then some (.error (.cancelled job.checkId))
  else if (s.ends.get? n).any (· ≤ s.now) then
    (p.run (.ofJob job s.runner.timeLimit)).map (·.2)
  else none

/-- The answer that a call gets, unless it has to wait. -/
def answerFor (p : Partners) (s : Session) (n : Nat) (c : Call) : Option Answer :=
  match c.stage with
  | .lookingUp _ (.requesting _) => some (.exchange (p.service.exchange s.sent) .plain)
  | .lookingUp _ (.resting _ _) => some .rested
  | .received | .lookingUp _ _ | .admitted _ | .ended _ _ => some .onward
  | .announcing job => some (.accepted (p.refusal (.plain job.checkId .running)).isNone)
  | .running job => (s.endingOf p n c job).map .outcome
  | .uploading job _ => some (.link (p.link job.checkId))
  | .concluding state => some (.accepted (p.refusal state).isNone)
  | .done _ | .broken => none

def noteEffect (p : Partners) (s : Session) : Effect → Session
  | .sent _ state | .forwarded _ state => s.note (.state state (p.refusal state).isNone)
  | .started n run =>
    let s := s.note (.started run)
    match p.run run with
    | some (duration, _) => { s with ends := s.ends.set n (s.now + duration) }
    | none => s
  | .uploaded _ checkId startTime output =>
    s.note (.upload checkId startTime output (p.link checkId).isSome)

/-- Account for a call that leaves a stage. -/
def leave (s : Session) (n : Nat) : Stage → Session
  | .lookingUp _ (.requesting _) => { s with sent := s.sent + 1 }
  | .lookingUp _ (.resting _ delay) => { s with now := s.now + delay.millisUp }
  | .admitted _ => { s with live := s.live ++ [n] }
  | .running job => { s with ends := s.ends.erase n }.note (.ended job.checkId)
  | .ended _ _ => { s with live := swapRemove s.live n }
  | _ => s

/-- Account for a call that comes to a stage. -/
def enter (s : Session) (n : Nat) (c : Call) : Session :=
  match c.stage with
  | .done d => { s with live := swapRemove s.live n }.note (.disposed c.message.id d)
  | _ => s

def answer (p : Partners) (s : Session) (n : Nat) (c : Call) (answer : Answer) : Option Session :=
  (s.runner.advance n answer).map fun (runner, effects) =>
    let s := effects.foldl (noteEffect p) { s.leave n c.stage with runner }
    match runner.calls.get? n with
    | some c => s.enter n c
    | none => s

/-- Let a call go on for at most `fuel` stages. -/
def settleFrom (p : Partners) : Nat → Session → Nat → Session
  | 0, s, _ => s
  | fuel + 1, s, n =>
    let next := do
      let c ← s.runner.calls.get? n
      s.answer p n c (← answerFor p s n c)
    match next with
    | some s => settleFrom p fuel s n
    | none => s

/-- The most stages that a call can go through. -/
def maxStages (s : Session) : Nat :=
  16 + match s.runner.abortList with
    | some list => 2 * list.retryer.limit
    | none => 0

/-- Let a call go on until it is over or waits for its run. -/
def settle (p : Partners) (s : Session) (n : Nat) : Session := settleFrom p s.maxStages s n

def deliver (p : Partners) (s : Session) (n : Nat) (message : Message) : Session :=
  { s with runner := s.runner.deliver n message }.settle p n

def abort (p : Partners) (s : Session) (checkId : String) : Except JobError Session :=
  (s.runner.abort checkId).map fun runner =>
    match runner.registry.get? checkId with
    | some g => { s with runner }.settle p g.owner
    | none => { s with runner }

def stopAll (p : Partners) (s : Session) : Session :=
  s.live.reverse.foldl (settle p) { s with runner := { s.runner with stopping := true } }

def disposition? (s : Session) (n : Nat) : Option Disposition :=
  (s.runner.calls.get? n).bind fun c => match c.stage with
    | .done d => some d
    | _ => none

/-- The call whose run of a check is under way. -/
def runOf? (s : Session) (checkId : String) : Option (Nat × Call) :=
  s.runner.calls.entries.find? fun (_, c) => match c.stage with
    | .running job => job.checkId = checkId
    | _ => false

def pendingRuns (s : Session) : List String :=
  (s.runner.calls.entries.filterMap fun (_, c) => match c.stage with
    | .running job => some job.checkId
    | _ => none).mergeSort fun a b => decide (a ≤ b)

/-- Note states that have been sent. -/
def noteSent (s : Session) (sent : List (CheckState × Option ReportError)) : Session :=
  sent.foldl (fun s (state, said) => s.note (.state state said.isNone)) s

end Session

end CheckAgent
