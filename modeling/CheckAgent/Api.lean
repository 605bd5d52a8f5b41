import CheckAgent.Check.State
import CheckAgent.Http.MediaType
import CheckAgent.Text.Percent

/-!
# The API of the agent

Running checks report about themselves over HTTP, and operators ask for the health and the load of
the agent and abort checks. **A request is read in stages**, and the first that fails decides the
answer: the path and the method, the check in the path, the media type, the size of the body and
what it holds. `Api.read` gives either an answer that needs nothing else or what is asked for.
Nothing happens before a request has been read to its end.
-/

namespace CheckAgent

open CheckAgent.Json CheckAgent.Text

/-- A request to the agent. -/
structure ApiRequest where
  method : String
  target : String
  mediaType : Option String
  body : Bytes
  deriving DecidableEq, Repr

inductive ApiBody where
  | empty
  | text (message : String)
  | json (value : Json)

/-- An answer of the agent. -/
structure ApiAnswer where
  status : Nat
  /-- The methods that are allowed, where the method of the request is not. -/
  allow : Option String
  mediaType : Option String
  body : ApiBody

/-- What a request asks for. -/
inductive ApiCall where
  | health
  | stats
  | update (checkId : String) (update : StateUpdate)
  | abort (checkId : String)
  deriving DecidableEq, Repr

/-- A resource of the agent, with the check in its path as it is written there. -/
inductive Resource where
  | health
  | stats
  | check (segment : List Char)
  | checkAbort (segment : List Char)
  deriving DecidableEq, Repr

namespace ApiAnswer

def value (status : Nat) (members : List (String × Json)) : ApiAnswer :=
  ⟨status, none, some "application/json", .json (.object members)⟩

def refusal (status : Nat) (message : String) : ApiAnswer :=
  ⟨status, none, some "text/plain; charset=utf-8", .text message⟩

def notFound : ApiAnswer := ⟨404, none, none, .empty⟩

def methodNotAllowed (allowed : String) : ApiAnswer := ⟨405, some allowed, none, .empty⟩

def notRunning (checkId : String) : ApiAnswer :=
  value 404 [("error", .string ("check " ++ checkId ++ " is not running"))]

def updated : ApiAnswer := value 200 [("status", .string "ok")]

def notForwarded (message : String) : ApiAnswer := value 502 [("error", .string message)]

def aborting : ApiAnswer := value 202 [("status", .string "aborting")]

def health : ApiAnswer := value 200 [("status", .string "ok"), ("service", .string "scan-agent")]

/-- The load of the agent. -/
def stats (running capacity secondsSinceLast : Nat) : ApiAnswer :=
  value 200 [("running", .ofNat running), ("capacity", .ofNat capacity),
    ("seconds_since_last_message", .ofNat secondsSinceLast)]

/-- An answer without the body that nobody asked for. -/
def forMethod (a : ApiAnswer) (method : String) : ApiAnswer :=
  if method = "HEAD" then { a with body := .empty } else a

end ApiAnswer

namespace Api

/-- What a target has behind its scheme and authority, if it is in absolute form. -/
def behindAuthority? (target : List Char) : Option (List Char) :=
  let scheme := target.takeWhile fun c => c.isAlphanum ∨ c ∈ ['+', '-', '.']
  match target.drop scheme.length with
  | ':' :: '/' :: '/' :: rest =>
    let authority := rest.takeWhile fun c => c ∉ ['/', '?', '#']
    if scheme = [] ∨ authority = [] then none else some (rest.drop authority.length)
  | _ => none

/-- The path of a target, without query and fragment. A target in absolute form has its path behind
the authority, and the empty path there is the root; any other target is its path. -/
def pathOf (target : List Char) : List Char :=
  let path (cs : List Char) := cs.takeWhile fun c => c ≠ '?' ∧ c ≠ '#'
  match behindAuthority? target with
  | none => path target
  | some rest => if path rest = [] then ['/'] else path rest

/-- The segments of a path: the texts between its slashes. -/
def segments : List Char → List (List Char)
  | [] => [[]]
  | c :: rest =>
    if c = '/' then [] :: segments rest
    else
      match segments rest with
      | [] => [[c]]
      | s :: more => (c :: s) :: more

/-- The resource of a path. Paths are compared as they are written, and the segment of a check is
not empty. -/
def resource? (path : List Char) : Option Resource :=
  match (segments path).map String.ofList with
  | ["", "health"] => some .health
  | ["", "stats"] => some .stats
  | ["", "check", id] => if id = "" then none else some (.check id.toList)
  | ["", "check", id, "abort"] => if id = "" then none else some (.checkAbort id.toList)
  | _ => none

/-- The methods of a resource. A resource that can be read can be asked for without its body. -/
def methods : Resource → List String
  | .health | .stats => ["GET", "HEAD"]
  | .check _ | .checkAbort _ => ["POST"]

/-- The check that a segment names. -/
def checkId (segment : List Char) : Except ApiAnswer String :=
  match Utf8.decode? (Percent.decode segment) with
  | some cs => .ok (String.ofList cs)
  | none => .error (.refusal 400 "Invalid URL: Invalid UTF-8 in \x60id\x60")

/-- The answer to a body that holds no update. -/
def bodyRefusal (e : Json.Error) : ApiAnswer :=
  match e.category with
  | .ended | .malformed =>
    .refusal 400 ("Failed to parse the request body as JSON: " ++ e.located)
  | .mismatched =>
    .refusal 422 ("Failed to deserialize the JSON body into the target type: " ++ e.located)

/-- The number of bytes that a body may have. -/
def bodyLimit : Nat := 2 * 1024 * 1024

/-- The update in the body of a request. The media type is looked at before the size of the body,
and what a body holds only if it is not too large. -/
def updateOf (r : ApiRequest) : Except ApiAnswer StateUpdate :=
  if ((r.mediaType.bind fun t => MediaType.read? t.toList).any MediaType.isJson) then
    if bodyLimit < r.body.length then
      .error (.refusal 413 "Failed to buffer the request body: length limit exceeded")
    else (StateUpdate.decode r.body).mapError bodyRefusal
  else .error (.refusal 415 "Expected request with \x60Content-Type: application/json\x60")

/-- Read a request: what it asks for, or the answer that refuses it. -/
def read (r : ApiRequest) : Except ApiAnswer ApiCall :=
  match resource? (pathOf r.target.toList) with
  | none => .error .notFound
  | some resource =>
    if r.method ∉ methods resource then
      .error (.methodNotAllowed (",".intercalate (methods resource)))
    else
      match resource with
      | .health => .ok .health
      | .stats => .ok .stats
      | .checkAbort segment => .abort <$> checkId segment
      | .check segment => do
        let id ← checkId segment
        let update ← updateOf r
        pure (.update id update)

end Api

end CheckAgent
