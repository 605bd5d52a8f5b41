import CheckAgent.Container.LogItem
import CheckAgent.Container.Run
import CheckAgent.Http.Service
import CheckAgent.Image
import CheckAgent.Json.Decode

/-!
# The container engine

The calls of the container runtime are requests to its API. `Engine.request` says **which request**
a call is, and `Engine.read` **what the call gives** when the answer has come. Some answers are JSON
values one after the other, each on a line of its own; a wait takes the first one, and a pull looks
through all of them for an error.
-/

namespace CheckAgent

open CheckAgent.Json CheckAgent.Text

structure Registry where
  server : String
  user : String
  password : String
  deriving DecidableEq, Repr

structure EngineRequest where
  method : String
  path : String
  query : List (String × String)
  body : Option Json
  /-- Who asks, where the registry wants to know. -/
  credentials : Option Json

inductive EngineResult where
  | created (id : String)
  | exited (code : Int)
  | done
  | output (frames : LogStream)

namespace RuntimeCall

def operation : RuntimeCall → String
  | .pull _ => "pull_image"
  | .create _ _ => "create_container"
  | .start _ => "start_container"
  | .wait _ => "wait_container"
  | .stop _ _ => "stop_container"
  | .logs _ => "logs"
  | .remove _ _ => "remove_container"

def target : RuntimeCall → String
  | .pull image => image
  | .create name _ => name
  | .start id | .wait id | .stop id _ | .logs id | .remove id _ => id

end RuntimeCall

namespace Engine

/-! ## Requests -/

def credentials (r : Registry) : Json :=
  .object [
    ("username", .string r.user), ("password", .string r.password),
    ("serveraddress", .string r.server), ("auth", .null), ("email", .null),
    ("identitytoken", .null), ("registrytoken", .null)]

/-- The query parameter for a truth value. -/
def flag (b : Bool) : String := if b then "true" else "false"

def request (registry : Option Registry) : RuntimeCall → EngineRequest
  | .create name spec =>
    ⟨"POST", "/containers/create", [("name", name), ("platform", "")],
      some (.object [
        ("Image", .string spec.image), ("Hostname", .string spec.hostname),
        ("Env", .array (spec.env.map .string))]),
      none⟩
  | .start id => ⟨"POST", "/containers/" ++ id ++ "/start", [], none, none⟩
  | .wait id => ⟨"POST", "/containers/" ++ id ++ "/wait", [], none, none⟩
  | .stop id grace =>
    ⟨"POST", "/containers/" ++ id ++ "/stop",
      [("t", toString (min grace.seconds (Nat.pow 2 31 - 1)))],
      none, none⟩
  | .remove id force =>
    ⟨"DELETE", "/containers/" ++ id, [("v", "false"), ("force", flag force), ("link", "false")],
      none, none⟩
  | .logs id =>
    ⟨"GET", "/containers/" ++ id ++ "/logs",
      [("follow", "false"), ("stdout", "true"), ("stderr", "true"), ("since", "0"), ("until", "0"),
        ("timestamps", "false"), ("tail", "all")],
      none, none⟩
  | .pull image =>
    let source := Image.pullSource image
    ⟨"POST", "/images/create",
      ("fromImage", source.repository) :: (source.tag.map fun t => ("tag", t)).toList ++
        [("platform", "")],
      none, registry.map credentials⟩

/-! ## Records in answers -/

/-- The message of an answer that is not one of success. -/
structure Refusal where
  message : Option String := none

def Refusal.record : Record Refusal where
  name := "DockerServerErrorMessage"
  fields := [.of "message" (·.message) (fun s v => { s with message := some v }) Draft.text]
  optional := fun _ => false
  empty := {}

def Refusal.read (d : Draft) : Decoded String :=
  Refusal.record.read d >>= fun r => require "message" r.message

structure Created where
  id : Option String := none
  warnings : Option (Option (List String)) := none

def Created.record : Record Created where
  name := "ContainerCreateResponse"
  fields := [
    .of "Id" (·.id) (fun s v => { s with id := some v }) Draft.text,
    .of "Warnings" (·.warnings) (fun s v => { s with warnings := some v })
      (Draft.optional (Draft.list Draft.text))]
  optional := fun _ => false
  empty := {}

def Created.read (d : Draft) : Decoded String := do
  let c ← Created.record.read d
  let id ← require "Id" c.id
  let _ ← require "Warnings" c.warnings
  pure id

/-- Why a container ended that could not be waited for. -/
structure ExitFault where
  message : Option (Option String) := none

def ExitFault.record : Record ExitFault where
  name := "ContainerWaitExitError"
  fields := [.of "Message" (·.message) (fun s v => { s with message := some v })
    (Draft.optional Draft.text)]
  optional := fun _ => false
  empty := {}

structure Exited where
  code : Option Int := none
  fault : Option (Option ExitFault) := none

def Exited.record : Record Exited where
  name := "ContainerWaitResponse"
  fields := [
    .of "StatusCode" (·.code) (fun s v => { s with code := some v }) Draft.signedWord,
    .of "Error" (·.fault) (fun s v => { s with fault := some v })
      (Draft.optional ExitFault.record.read)]
  optional := fun _ => false
  empty := {}

/-- Read the code of a container that ended. -/
def Exited.read (d : Draft) : Decoded Int :=
  Exited.record.read d >>= fun e => require "StatusCode" e.code

/-- The details of an error of a pull, which are not made use of. -/
structure PullErrorDetail where
  code : Option (Option Int) := none
  message : Option (Option String) := none

def PullErrorDetail.record : Record PullErrorDetail where
  name := "ErrorDetail"
  fields := [
    .of "code" (·.code) (fun s v => { s with code := some v }) (Draft.optional Draft.signedWord),
    .of "message" (·.message) (fun s v => { s with message := some v })
      (Draft.optional Draft.text)]
  optional := fun _ => false
  empty := {}

/-- How far a pull is, which is not made use of. -/
structure PullProgress where
  current : Option (Option Int) := none
  total : Option (Option Int) := none

def PullProgress.record : Record PullProgress where
  name := "ProgressDetail"
  fields := [
    .of "current" (·.current) (fun s v => { s with current := some v })
      (Draft.optional Draft.signedWord),
    .of "total" (·.total) (fun s v => { s with total := some v })
      (Draft.optional Draft.signedWord)]
  optional := fun _ => false
  empty := {}

/-- One answer of a pull. -/
structure PullStep where
  id : Option (Option String) := none
  error : Option (Option String) := none
  errorDetail : Option (Option PullErrorDetail) := none
  status : Option (Option String) := none
  progress : Option (Option String) := none
  progressDetail : Option (Option PullProgress) := none

def PullStep.record : Record PullStep where
  name := "CreateImageInfo"
  fields := [
    .of "id" (·.id) (fun s v => { s with id := some v }) (Draft.optional Draft.text),
    .of "error" (·.error) (fun s v => { s with error := some v }) (Draft.optional Draft.text),
    .of "errorDetail" (·.errorDetail) (fun s v => { s with errorDetail := some v })
      (Draft.optional PullErrorDetail.record.read),
    .of "status" (·.status) (fun s v => { s with status := some v }) (Draft.optional Draft.text),
    .of "progress" (·.progress) (fun s v => { s with progress := some v })
      (Draft.optional Draft.text),
    .of "progressDetail" (·.progressDetail) (fun s v => { s with progressDetail := some v })
      (Draft.optional PullProgress.record.read)]
  optional := fun _ => false
  empty := {}

/-- Read the error in an answer of a pull, if there is one. -/
def PullStep.read (d : Draft) : Decoded (Option String) := do
  let s ← PullStep.record.read d
  pure s.error.join

/-! ## Answers -/

/-- A decoding error as the engine client puts it. -/
def jsonError (e : Json.Error) : EngineError :=
  match e.category with
  | .mismatched => .other ("Failed to deserialize JSON: " ++ e.message)
  | .ended | .malformed => .other e.message

/-- What the front of a stream of JSON lines is. -/
inductive LineStep (α : Type) where
  | value (a : α) (rest : Bytes)
  /-- There is no whole value. -/
  | more (rest : Bytes)
  | failed (error : EngineError)

/-- Read one value from the front of a stream. A line that ends too early goes on in the next one,
and a line feed within a value is dropped. A line that says `null` is taken for one that goes on. -/
def lineStep {α : Type} (read : Draft → Decoded α) (stream : Bytes) : LineStep α :=
  let line := stream.takeWhile (· ≠ '\n'.toUInt8)
  let rest := stream.drop (line.length + 1)
  match stream with
  | [] => .more []
  | _ =>
    match decodeBytes (Draft.optional read) line with
    | .ok (some a) => .value a rest
    | .ok none => .more (line ++ rest)
    | .error e => if e.category = .ended then .more (line ++ rest) else .failed (jsonError e)

/-- The values of a stream of JSON lines. At its end it is read once more, and must then be used
up. -/
def values {α : Type} (read : Draft → Decoded α) :
    Nat → (ended : Bool) → Bytes → List (Except EngineError α)
  | 0, _, _ => []
  | fuel + 1, ended, stream =>
    match lineStep read stream with
    | .value a rest => .ok a :: values read fuel ended rest
    | .failed e => [.error e]
    | .more rest =>
      if !ended then values read fuel true rest
      else if rest.isEmpty then []
      else [.error LogItem.leftOver]

/-- The values of a body. -/
def bodyValues {α : Type} (read : Draft → Decoded α) (body : Bytes) : List (Except EngineError α) :=
  values read (body.length + 2) false body

/-- Whether a status is one of success for the engine. -/
def isSuccess (status : Nat) : Bool := Exchange.isSuccess status || status = 304

/-- The failure in an answer that is not one of success. A body that is no message is one as it
is, unless it ends too early. -/
def refusal (status : Nat) (body : Bytes) : EngineError :=
  let text := String.ofList (Utf8.decodeLossy body)
  if body.isEmpty then .responded status ""
  else
    match (Document.ofString text).decode Refusal.read with
    | .ok message => .responded status message
    | .error e => if e.category = .ended then .other e.message else .responded status text

def noStatus : EngineError := .other "wait stream ended without a status"

/-- The exit code in the answer to a wait. -/
def exitCode (body : Bytes) : Except EngineError Int :=
  match bodyValues Exited.read body with
  | first :: _ => first
  | [] => .error noStatus

def pulled : List (Except EngineError (Option String)) → Except EngineError Unit
  | [] => .ok ()
  | .error e :: _ => .error e
  | .ok (some error) :: _ => .error (.other ("Docker stream error: " ++ error))
  | .ok none :: rest => pulled rest

/-- What a call gives whose answer was one of success. -/
def readBody (call : RuntimeCall) (body : Bytes) : Except EngineError EngineResult :=
  match call with
  | .create _ _ => (decodeBytes Created.read body).mapError jsonError |>.map .created
  | .wait _ => .exited <$> exitCode body
  | .pull _ => (fun () => .done) <$> pulled (bodyValues PullStep.read body)
  | .logs id => .ok (.output (LogStream.ofItems id (LogItem.read body)))
  | .start _ | .stop _ _ | .remove _ _ => .ok .done

/-- What a call gives. Output that cannot be had is a single failure. -/
def read (call : RuntimeCall) (exchange : Exchange) : Except ContainerError EngineResult :=
  let outcome : Except EngineError EngineResult :=
    match exchange with
    | .unreachable reason | .lost reason => .error (.other reason)
    | .answered status body =>
      if isSuccess status then readBody call body else .error (refusal status body)
  match call, outcome with
  | _, .ok result => .ok result
  | .logs id, .error e => .ok (.output (LogStream.ofItems id [.failed e]))
  | call, .error e => .error (e.ofOperation call.operation call.target)

/-- The socket of the engine: the one that a host setting names, or else the usual one. -/
def socket (host : Option String) : String :=
  match host with
  | some h => if h.startsWith scheme then (h.drop scheme.length).toString else usualSocket
  | none => usualSocket
where
  scheme := "unix://"
  usualSocket := "/var/run/docker.sock"

/-- Connect to the engine, whose socket must exist. -/
def connect (socket : String) (present : Bool) : Except ContainerError Unit :=
  if present then .ok () else .error (.connect ("Socket not found: " ++ socket))

end Engine

end CheckAgent
