import CheckAgent.Container.Logs

/-!
# Log items

The container runtime sends the output of a container as items. An item has **a header** of eight
bytes, of which the first names the stream and the last four count what follows; a container with a
terminal sends plain lines instead. `LogItem.read` divides a body into items, and
`LogStream.ofItems` keeps what a run makes use of: the input of a container is no output, and a
terminal writes to the first stream.
-/

namespace CheckAgent

open CheckAgent.Text

/-- A failure of the container runtime as it tells it. -/
inductive EngineError where
  /-- It answered with a status that is not one of success. -/
  | responded (status : Nat) (message : String)
  | other (message : String)
  deriving DecidableEq, Repr

namespace EngineError

def message : EngineError → String
  | .responded status m => "Docker responded with status code " ++ toString status ++ ": " ++ m
  | .other m => m

/-- The failure of an operation. An object that does not exist is told apart. -/
def ofOperation (name target : String) (e : EngineError) : ContainerError :=
  match e with
  | .responded 404 _ => .notFound target
  | e => .operation name target e.message

end EngineError

/-- An item of the output. -/
inductive LogItem where
  | stdin (bytes : Bytes)
  | stdout (bytes : Bytes)
  | stderr (bytes : Bytes)
  | console (bytes : Bytes)
  | failed (error : EngineError)
  deriving DecidableEq, Repr

namespace LogItem

/-- What an item is to a run that reads the output of a container. -/
def frame? (container : String) : LogItem → Option (Except ContainerError LogFrame)
  | .stdin _ => none
  | .stdout bytes | .console bytes => some (.ok (.stdout bytes))
  | .stderr bytes => some (.ok (.stderr bytes))
  | .failed e => some (.error (e.ofOperation "logs" container))

/-- What is said of a body that ends within an item. -/
def leftOver : EngineError := .other "bytes remaining on stream"

/-- The number that bytes are, the first one being the most significant. -/
def number (bytes : Bytes) : Nat := bytes.foldl (fun n b => n * 256 + b.toNat) 0

/-- The item of a stream. -/
def ofStream (stream : UInt8) (bytes : Bytes) : LogItem :=
  if stream = 0 then .stdin bytes else if stream = 1 then .stdout bytes else .stderr bytes

/-- One item from the front of a body, and what follows it; nothing at the end. A header without
anything behind it is the end as well. -/
def next? (body : Bytes) : Option (LogItem × Bytes) :=
  match body with
  | [] => none
  | stream :: _ =>
    if 2 < stream.toNat then
      let line := body.takeWhile (· ≠ '\n'.toUInt8)
      match body.drop line.length with
      | [] => some (.failed leftOver, [])
      | feed :: rest => some (.console (line ++ [feed]), rest)
    else if body.length < 8 then some (.failed leftOver, [])
    else
      let size := number ((body.take 8).drop 4)
      let rest := body.drop 8
      if size ≤ rest.length then some (ofStream stream (rest.take size), rest.drop size)
      else if rest.isEmpty then none
      else some (.failed leftOver, [])

theorem next?_length {body rest : Bytes} {item : LogItem} (h : next? body = some (item, rest)) :
    rest.length < body.length := by
  unfold next? at h
  split at h
  · cases h
  · split at h
    · simp only at h
      split at h
      · cases h; simp
      · next heq =>
        cases h
        have := congrArg List.length heq
        simp only [List.length_drop, List.length_cons] at this ⊢
        omega
    · split at h
      · cases h; simp
      · simp only at h
        split at h
        · cases h
          simp only [List.length_drop]
          omega
        · split at h
          · cases h
          · cases h; simp

def read (body : Bytes) : List LogItem :=
  match _h : next? body with
  | none => []
  | some (item, rest) => item :: read rest
termination_by body.length
decreasing_by exact next?_length _h

end LogItem

/-- The frames of items. -/
def LogStream.ofItems (container : String) (items : List LogItem) : LogStream :=
  items.filterMap (LogItem.frame? container)

end CheckAgent
