import CheckAgent.Json.Decode

/-!
# Check states

A check goes through states that are reported as JSON: **its status**, how far it has come, and a
link to its raw output. Every status but `RUNNING` is final. A state is encoded with the parts
that it has and decoded from either shape of a record.

**Progress** is a number of 32 bits. One beyond that format is an infinity, which is written as
`null`.
-/

namespace CheckAgent

open CheckAgent.Json CheckAgent.Number

/-- The status of a check. -/
inductive Status where
  | running
  | finished
  | failed
  | timeout
  | aborted
  | inconclusive
  deriving DecidableEq, Repr, Inhabited

namespace Status

def all : List Status := [.running, .finished, .failed, .timeout, .aborted, .inconclusive]

/-- The name of a status in messages. -/
def name : Status → String
  | .running => "RUNNING"
  | .finished => "FINISHED"
  | .failed => "FAILED"
  | .timeout => "TIMEOUT"
  | .aborted => "ABORTED"
  | .inconclusive => "INCONCLUSIVE"

/-- Whether a status ends the check. -/
def isFinal : Status → Bool
  | .running => false
  | _ => true

def ofName? (s : String) : Option Status := all.find? (·.name = s)

def read : Draft → Decoded Status := Draft.choice ofName? (all.map name)

end Status

/-- The state of a check as it is reported. -/
structure CheckState where
  checkId : String
  status : Status
  progress : Option Binary
  /-- A link to the raw output. -/
  raw : Option String
  deriving DecidableEq, Repr

namespace CheckState

def plain (checkId : String) (status : Status) : CheckState := ⟨checkId, status, none, none⟩

/-- The encoding of a state. Parts that are absent are left out. -/
def toJson (s : CheckState) : Json :=
  .object <|
    [("check_id", .string s.checkId), ("status", .string s.status.name)] ++
    (s.progress.map fun p => ("progress", Json.ofBinary binary32 p)).toList ++
    (s.raw.map fun r => ("raw", Json.string r)).toList

structure Partial where
  checkId : Option String := none
  status : Option Status := none
  progress : Option (Option Binary) := none
  raw : Option (Option String) := none

def record : Record Partial where
  name := "CheckState"
  fields := [
    .of "check_id" (·.checkId) (fun s v => { s with checkId := some v }) Draft.text,
    .of "status" (·.status) (fun s v => { s with status := some v }) Status.read,
    .of "progress" (·.progress) (fun s v => { s with progress := some v })
      (Draft.optional Draft.single),
    .of "raw" (·.raw) (fun s v => { s with raw := some v }) (Draft.optional Draft.text)]
  optional := fun n => n = "progress" ∨ n = "raw"
  empty := {}

def read (d : Draft) : Decoded CheckState := do
  let s ← record.read d
  pure {
    checkId := ← require "check_id" s.checkId
    status := ← require "status" s.status
    progress := s.progress.join
    raw := s.raw.join }

def decode (text : String) : Decoded CheckState := (Document.ofString text).decode read

end CheckState

/-- What a running check says about itself. -/
structure StateUpdate where
  status : Status
  progress : Option Binary
  deriving DecidableEq, Repr

namespace StateUpdate

structure Partial where
  status : Option Status := none
  progress : Option (Option Binary) := none

def record : Record Partial where
  name := "StateUpdate"
  fields := [
    .of "status" (·.status) (fun s v => { s with status := some v }) Status.read,
    .of "progress" (·.progress) (fun s v => { s with progress := some v })
      (Draft.optional Draft.single)]
  optional := fun n => n = "progress"
  empty := {}

def read (d : Draft) : Decoded StateUpdate := do
  let s ← record.read d
  pure { status := ← require "status" s.status, progress := s.progress.join }

def decode (bytes : Text.Bytes) : Decoded StateUpdate := decodeBytes read bytes

end StateUpdate

end CheckAgent
