import CheckAgent.Agent.Error
import CheckAgent.Check.State
import CheckAgent.Http.Service
import CheckAgent.Retry.Retryer
import CheckAgent.Time.Instant

/-!
# Reporting

The states of checks and their raw output are posted to services as JSON. A report is sent again
**while its failure is transient**: the connection failed, or the service has an error of its own.
Each repetition is the same request. The answer to a state counts if its status is one of success;
the answer to raw output must also hold a link.
-/

namespace CheckAgent

open CheckAgent.Json CheckAgent.Text

/-- What is reported. -/
inductive Report where
  | state (state : CheckState)
  | output (checkId : String) (startTime : Instant) (raw : Bytes)
  deriving DecidableEq, Repr

/-- Where reports go, and how they are repeated. -/
structure Reporter where
  stateEndpoint : String
  resultsEndpoint : String
  retryer : Retryer
  deriving DecidableEq, Repr

/-- A request: where it goes, and what is posted there. -/
structure PostRequest where
  endpoint : String
  body : Json

/-- How a report went: the requests that were made, and the link or nothing. -/
structure Reporting where
  requests : List PostRequest
  ending : Ending ReportError (Option String)

structure RawLink where
  url : Option String := none

def RawLink.record : Record RawLink where
  name := "RawLink"
  fields := [.of "url" (·.url) (fun s v => { s with url := some v }) Draft.text]
  optional := fun _ => false
  empty := {}

/-- Read the link in an answer to raw output. -/
def RawLink.read (d : Draft) : Decoded String :=
  RawLink.record.read d >>= fun l => require "url" l.url

namespace Report

/-- The body of a report. Raw output is sent as text. -/
def toJson : Report → Json
  | .state s => s.toJson
  | .output checkId startTime raw => .object [
      ("check_id", .string checkId),
      ("scan_start_time", .string startTime.text),
      ("raw", .string (String.ofList (Utf8.decodeLossy raw)))]

end Report

namespace Reporter

def rawEndpoint (r : Reporter) : String :=
  String.ofList ((r.resultsEndpoint.toList.reverse.dropWhile (· = '/')).reverse) ++ "/raw"

def endpoint (r : Reporter) : Report → String
  | .state _ => r.stateEndpoint
  | .output _ _ _ => r.rawEndpoint

def link? (body : Bytes) : Option String := (decodeBytes RawLink.read body).toOption

/-- What is said of an answer without a link. -/
def undecodable : String := "error decoding response body"

/-- The outcome of a request. -/
def read (r : Reporter) (report : Report) : Exchange → Except ReportError (Option String)
  | .unreachable reason | .lost reason => .error (.lost (r.endpoint report) reason)
  | .answered status body =>
    if Exchange.isSuccess status then
      match report with
      | .state _ => .ok none
      | .output _ _ _ =>
        match link? body with
        | some url => .ok (some url)
        | none => .error (.invalidResponse (r.endpoint report) undecodable)
    else .error (.unexpectedStatus (r.endpoint report) status)

def request (r : Reporter) (report : Report) : PostRequest := ⟨r.endpoint report, report.toJson⟩

/-- Deliver a report, given what comes of each request. -/
def deliver (r : Reporter) (answers : Nat → Exchange) (chance : Nat → Chance) (report : Report) :
    Reporting :=
  let course := r.retryer.run Span.millisUp ReportError.kind
    (fun i => (0, r.read report (answers i))) chance none
  ⟨course.starts.map fun _ => r.request report, course.ending⟩

/-- Send a report to a service that has been sent some requests before. -/
def send (r : Reporter) (service : Service) (sent : Nat) (report : Report) : Reporting :=
  r.deliver (fun i => service.exchange (sent + i)) (fun _ => .plain) report

end Reporter

end CheckAgent
