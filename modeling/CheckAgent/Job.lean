import CheckAgent.Image
import CheckAgent.Json.Decode
import CheckAgent.Time.Span
import CheckAgent.Time.StartTime

/-!
# Jobs

A job is a queue message that asks for one check. **Decoding** takes an object with members in any
order, or a list of the fields in their declared order. The start time has two names: the second
one counts where the first is absent or `null`. Lists and metadata may be `null` for empty, the
other fields with a default may only be absent.

**Encoding** writes the start time in the internet date format.
-/

namespace CheckAgent

open CheckAgent.Json

/-- What a job asks for. -/
structure Job where
  checkId : String
  startTime : Instant
  image : String
  target : String
  /-- The time limit in seconds; zero stands for the agent's default. -/
  timeout : Nat
  assetType : String
  options : String
  requiredVars : List String
  metadata : List (String × String)
  deriving DecidableEq, Repr

/-- Keep one value for each name, the last one, in the order in which the names first came. -/
def lastValues (pairs : List (String × String)) : List (String × String) :=
  pairs.foldl
    (fun kept (k, v) =>
      if kept.any (·.1 = k) then kept.map fun p => if p.1 = k then (k, v) else p
      else kept ++ [(k, v)])
    []

namespace Job

structure Partial where
  checkId : Option String := none
  startTime : Option (Option String) := none
  scanStartTime : Option (Option String) := none
  image : Option String := none
  target : Option String := none
  timeout : Option Nat := none
  assetType : Option String := none
  options : Option String := none
  requiredVars : Option (Option (List String)) := none
  metadata : Option (Option (List (String × String))) := none

/-- The fields that a list may leave out. -/
def optionalFields : List String := ["timeout", "assettype", "options", "required_vars", "metadata"]

def record : Record Partial where
  name := "RawJobParams"
  fields := [
    .of "check_id" (·.checkId) (fun s v => { s with checkId := some v }) Draft.text,
    .of "start_time" (·.startTime) (fun s v => { s with startTime := some v })
      (Draft.optional Draft.text),
    .of "scan_start_time" (·.scanStartTime) (fun s v => { s with scanStartTime := some v })
      (Draft.optional Draft.text),
    .of "image" (·.image) (fun s v => { s with image := some v }) Draft.text,
    .of "target" (·.target) (fun s v => { s with target := some v }) Draft.text,
    .of "timeout" (·.timeout) (fun s v => { s with timeout := some v }) Draft.word,
    .of "assettype" (·.assetType) (fun s v => { s with assetType := some v }) Draft.text,
    .of "options" (·.options) (fun s v => { s with options := some v }) Draft.text,
    .of "required_vars" (·.requiredVars) (fun s v => { s with requiredVars := some v })
      (Draft.optional (Draft.list Draft.text)),
    .of "metadata" (·.metadata) (fun s v => { s with metadata := some v })
      (Draft.optional (Draft.dictionary Draft.text))]
  optional := fun n => n ∈ optionalFields
  empty := {}

/-- The start time of a job message. -/
def startTimeOf (s : Partial) : Decoded Instant := do
  let text ← require "start_time" (s.startTime.join.or s.scanStartTime.join)
  match StartTime.read text with
  | .ok i => pure i
  | .error e => .error (.here (.refused e.message))

/-- The job of a record that has been read to its end. The names that are missing come first. -/
def ofPartial (s : Partial) : Decoded Job := do
  let checkId ← require "check_id" s.checkId
  let image ← require "image" s.image
  let target ← require "target" s.target
  let startTime ← startTimeOf s
  pure {
    checkId, startTime, image, target
    timeout := s.timeout.getD 0
    assetType := s.assetType.getD ""
    options := s.options.getD ""
    requiredVars := s.requiredVars.join.getD []
    metadata := lastValues (s.metadata.join.getD []) }

def read (d : Draft) : Decoded Job := record.read d >>= ofPartial

def decode (text : String) : Decoded Job := (Document.ofString text).decode read

/-- The encoding of a job. -/
def toJson (j : Job) : Json :=
  .object [
    ("check_id", .string j.checkId),
    ("start_time", .string j.startTime.text),
    ("image", .string j.image),
    ("target", .string j.target),
    ("timeout", .ofNat j.timeout),
    ("assettype", .string j.assetType),
    ("options", .string j.options),
    ("required_vars", .array (j.requiredVars.map .string)),
    ("metadata", .object (j.metadata.map fun (k, v) => (k, .string v)))]

/-- The time limit of a job, the default where it has none. -/
def timeLimit (j : Job) (default : Span) : Span :=
  if j.timeout = 0 then default else .ofSeconds j.timeout

end Job

end CheckAgent
