import CheckAgent.Agent.Error
import CheckAgent.Http.Service
import CheckAgent.Http.Url
import CheckAgent.Json.Decode
import CheckAgent.Retry.Retryer

/-!
# The list of aborted checks

A service knows the checks that have been aborted and must not be started. The agent keeps the last
list that it has fetched. **A lookup** looks into that list first, and fetches a new one if the
check is not in it; the answer is then the one of the new list, which takes the place of the old
one. A lookup that fails leaves the list as it is.

Several lookups may be going on at a time, and each of their steps is `AbortList.check`, `answer` or
`store`, or the end of a delay. `AbortList.lookUp` runs a lookup alone.
-/

namespace CheckAgent

open CheckAgent.Json CheckAgent.Text

/-- The list that was fetched last, and how fetches are retried. -/
structure AbortList where
  retryer : Retryer
  ids : List String
  deriving DecidableEq, Repr

/-- Where a lookup is. -/
inductive Lookup where
  | checking
  /-- A request is under way. -/
  | requesting (attempt : Nat)
  /-- A request comes after a delay. -/
  | resting (attempt : Nat) (delay : Span)
  /-- A list has been fetched and takes the place of the old one. -/
  | storing (fetched : List String)
  | found (aborted : Bool)
  | failed (error : AbortListError)
  /-- The delay before the next request is no span. -/
  | broken (why : SpanFault)
  deriving DecidableEq, Repr

namespace AbortList

/-- The list of a service at an address, which has not been fetched yet. -/
def ofAddress (address : String) (retryer : Retryer) : Except AbortListError AbortList :=
  match Url.read address with
  | .ok _ => .ok ⟨retryer, []⟩
  | .error fault => .error (.invalidAddress address fault.message)

/-- What is said of an answer that is no list of names. -/
def undecodable : String := "error decoding response body"

def names? (body : Bytes) : Option (List String) :=
  (decodeBytes (Draft.list Draft.text) body).toOption

def read : Exchange → Except AbortListError (List String)
  | .unreachable reason | .lost reason => .error (.lost reason)
  | .answered status body =>
    if status = 200 then
      match names? body with
      | some names => .ok names
      | none => .error (.undecodable undecodable)
    else .error (.unexpectedStatus status)

def check (l : AbortList) (checkId : String) : Lookup :=
  if checkId ∈ l.ids then .found true else .requesting 0

/-- Take in what came of a request. After a failure chance bears on the next one. -/
def answer (l : AbortList) (attempt : Nat) (exchange : Exchange) (chance : Chance) : Lookup :=
  match read exchange with
  | .ok names => .storing names
  | .error e =>
    match l.retryer.verdict attempt e.kind chance with
    | .giveUp => .failed e
    | .retryAfter delay => .resting (attempt + 1) delay
    | .fault why => .broken why

/-- Put a fetched list in the place of the old one. -/
def store (l : AbortList) (checkId : String) (fetched : List String) : AbortList × Lookup :=
  ({ l with ids := fetched }, .found (decide (checkId ∈ fetched)))

/-- A lookup that has ended: the list after it, how it ended, the number of requests that the
service has been sent by then, and the time. -/
structure Found where
  list : AbortList
  lookup : Lookup
  sent : Nat
  time : Nat

/-- Run a lookup alone for at most `fuel` steps. -/
def run (service : Service) (clock : Span → Nat) (checkId : String) : Nat → Found → Found
  | 0, s => s
  | fuel + 1, s =>
    match s.lookup with
    | .checking => run service clock checkId fuel { s with lookup := s.list.check checkId }
    | .requesting attempt =>
      run service clock checkId fuel
        { s with lookup := s.list.answer attempt (service.exchange s.sent) .plain,
                 sent := s.sent + 1 }
    | .resting attempt delay =>
      run service clock checkId fuel
        { s with lookup := .requesting attempt, time := s.time + clock delay }
    | .storing fetched =>
      let (list, lookup) := s.list.store checkId fetched
      { s with list, lookup }
    | .found _ | .failed _ | .broken _ => s

/-- Look up a check when some requests have been sent before. -/
def lookUp (l : AbortList) (service : Service) (clock : Span → Nat) (checkId : String)
    (sent time : Nat) : Found :=
  run service clock checkId (2 * l.retryer.limit + 4) ⟨l, .checking, sent, time⟩

end AbortList

end CheckAgent
