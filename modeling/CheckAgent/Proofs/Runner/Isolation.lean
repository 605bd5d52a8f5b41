import CheckAgent.Proofs.Runner.Record
import CheckAgent.Runner.Serve

/-!
# Checks do not disturb each other

The checks of an agent share one runner: its registry, its calls and the callbacks. **The part of a
runner** that belongs to a check holds the entry of the check, the calls whose messages ask for it,
and the callbacks that name it. An event concerns the check of its call, of its callback or of its
abort; the end of all runs concerns every check.

**Main result** (`checks_isolated`). Let a runner without a list of aborted checks go through any
history, and delete the events that do not concern a check. What remains happens all the same, and
of the check the same is seen: the states sent and whether they were accepted, its runs, its
uploads, what happens to the token of its run, what becomes of its messages, and the answers to the
aborts and callbacks that name it. Whoever answered by the update, the check or the run alone still
does, and a request that names the check is answered alike.

The proof is one projection. An event that concerns the check does to the part what it does to the
runner (`step_part`), every other event leaves the part alone (`part_of_step`), and so the history
of the part is the part of the history (`history_concerning`). What a request does to the runner is
what its events do (`serveCall_runner`), so a history with requests is one of events.
-/

namespace CheckAgent

open Runner CheckAgent.Text

/-! ## What concerns a check -/

def Effect.checkId : Effect → String
  | .sent _ state | .forwarded _ state => state.checkId
  | .started _ run => run.checkId
  | .uploaded _ checkId _ _ => checkId

def ApiCall.checkId? : ApiCall → Option String
  | .health | .stats => none
  | .update checkId _ | .abort checkId => some checkId

/-- The events of a request that is served as callback `n`. -/
def ApiCall.events (n : Nat) (refusal : CheckState → Option ReportError) :
    ApiCall → List RunnerEvent
  | .health | .stats => []
  | .update checkId said =>
    let state : CheckState := ⟨checkId, said.status, said.progress, none⟩
    [.report n state, .forward n, .answer n (refusal state).isNone]
  | .abort checkId => [.abort checkId]

namespace Runner

/-- The part of a runner that belongs to a check. -/
def part (r : Runner) (c : String) : Runner :=
  { r with
    registry := r.registry.filter fun d _ => d = c
    calls := r.calls.filter fun _ call => call.message.checkId? = some c
    callbacks := r.callbacks.filter fun _ callback => callback.state.checkId = c }

def named? (r : Runner) (n : Nat) : Option String := (r.callbacks.get? n).map (·.state.checkId)

/-- Whether an event concerns a check. -/
def concerns (r : Runner) (c : String) : RunnerEvent → Bool
  | .deliver _ message => message.checkId? = some c
  | .advance n _ => r.checkId? n = some c
  | .abort d => d = c
  | .stopAll => true
  | .report _ state => state.checkId = c
  | .forward n | .answer n _ => r.named? n = some c

/-- The token of the run of a check: the call that runs it, and whether the run is to stop. -/
def token? (r : Runner) (c : String) : Option (Nat × Bool) := do
  let n ← r.owner? c
  let call ← r.calls.get? n
  some (n, r.isFired call)

end Runner

/-- What is seen of a check. -/
inductive Observation where
  | effect (effect : Effect)
  /-- A call goes on with an answer. -/
  | answered (call : Nat) (answer : Answer)
  /-- The token of the run has become another. -/
  | token (token : Option (Nat × Bool))
  | disposed (message : Message) (disposition : Disposition)
  | aborted (reply : Except JobError Unit)
  | reported (callback : Nat) (reply : Except JobError Unit)
  /-- Whether what a callback said was accepted. -/
  | confirmed (callback : Nat) (ok : Bool)

namespace Moment

/-- A moment as it is for the part of a check. -/
def part (m : Moment) (c : String) : Moment :=
  ⟨m.before.part c, m.event, m.effects, m.after.part c⟩

/-- The answers to the calls of a check, and to the aborts and callbacks that name it. -/
def replies (m : Moment) (c : String) : List Observation :=
  match m.event with
  | .advance n a => if m.before.checkId? n = some c then [.answered n a] else []
  | .abort d => if d = c then [.aborted ((m.before.abort d).map fun _ => ())] else []
  | .report n state =>
    if state.checkId = c then [.reported n ((m.before.report n state).map fun _ => ())] else []
  | .answer n ok => if m.before.named? n = some c then [.confirmed n ok] else []
  | .deliver _ _ | .stopAll | .forward _ => []

/-- What happens to the token of the run of a check. -/
def tokens (m : Moment) (c : String) : List Observation :=
  if m.after.token? c = m.before.token? c then [] else [.token (m.after.token? c)]

/-- What becomes of the messages that ask for a check. -/
def disposals (m : Moment) (c : String) : List Observation :=
  match m.event.call?.bind m.after.calls.get? with
  | some ⟨message, .done d, _⟩ => if message.checkId? = some c then [.disposed message d] else []
  | _ => []

/-- What a moment shows of a check. -/
def seen (m : Moment) (c : String) : List Observation :=
  m.replies c ++ (m.effects.filter (·.checkId = c)).map .effect ++ m.tokens c ++ m.disposals c

end Moment

/-- Collaborators that answer by the update, the check or the run alone. -/
structure Collaborators where
  /-- Whether a state is accepted. -/
  accepts : CheckState → Bool
  /-- The link to the output of a check, if it is accepted. -/
  link : String → Option String
  /-- How a run may end, by whether it is to stop. -/
  ends : RunSpec → Bool → Except RunError Bytes → Prop

namespace Collaborators

/-- What a call gets for an answer. -/
def Gives (k : Collaborators) (r : Runner) (call : Call) (a : Answer) : Prop :=
  match call.stage, a with
  | .announcing job, .accepted ok => ok = k.accepts (.plain job.checkId .running)
  | .running job, .outcome outcome =>
    k.ends (.ofJob job r.timeLimit) (r.isFired call) outcome
  | .uploading job _, .link url => url = k.link job.checkId
  | .concluding state, .accepted ok => ok = k.accepts state
  | _, _ => True

/-- The answers at a moment are those of the collaborators. -/
def Answers (k : Collaborators) (m : Moment) : Prop :=
  match m.event with
  | .advance n a => ∀ call, m.before.calls.get? n = some call → k.Gives m.before call a
  | .answer n ok =>
    ∀ callback, m.before.callbacks.get? n = some callback → ok = k.accepts callback.state
  | _ => True

end Collaborators

namespace History

/-- The events of a history that concern a check. -/
def concerning (h : History) (c : String) : List RunnerEvent :=
  (h.moments.filter fun m => m.before.concerns c m.event).map (·.event)

/-- What is seen of a check. -/
def seen (h : History) (c : String) : List Observation := h.moments.flatMap (·.seen c)

/-- A history as it is for the part of a check. -/
def part (h : History) (c : String) : History where
  moments := (h.moments.filter fun m => m.before.concerns c m.event).map (·.part c)
  now := h.now.part c

/-- For a check, history `h'` of the events that concern it is as good as the whole history `h`. -/
structure Isolated (h h' : History) (c : String) : Prop where
  /-- What concerns the check happens. -/
  happens : h'.moments.map (·.event) = h.concerning c
  /-- The same is seen of the check. -/
  seen : h'.seen c = h.seen c
  /-- The events that do not concern the check show nothing of it. -/
  silent : ∀ m ∈ h.moments, m.before.concerns c m.event = false → m.seen c = []
  /-- A request that names the check gets the same answer, and the same states are sent. -/
  requests : ∀ n context request call, Api.read request = .ok call → call.checkId? = some c →
    (h'.now.serve n context request).answer = (h.now.serve n context request).answer ∧
      (h'.now.serve n context request).sent = (h.now.serve n context request).sent
  /-- A request makes of the runner what its events make of it, so that a history with requests is
  one of events. -/
  events : ∀ n context call, h.now.callbacks.get? n = none →
    (h.now.serveCall n context call).runner =
      (h.now.history (call.events n context.refusal)).now
  /-- Collaborators that answer by the update, the check or the run alone answer likewise. -/
  obeys : ∀ k : Collaborators, (∀ m ∈ h.moments, k.Answers m) → ∀ m ∈ h'.moments, k.Answers m

end History

/-! ## What an event does to the part of a check -/

namespace Runner

variable {r r' : Runner} {c d : String} {n : Nat} {a : Answer} {e : RunnerEvent}
  {out : List Effect} {job : Job} {state : CheckState}

theorem get?_registry_part (r : Runner) (c d : String) :
    (r.part c).registry.get? d = if d = c then r.registry.get? d else none := by
  refine (Table.get?_filter _ _ _).trans ?_
  cases r.registry.get? d <;> by_cases same : d = c <;> simp [same]

theorem get?_calls_part (r : Runner) (c : String) (n : Nat) : (r.part c).calls.get? n =
    (r.calls.get? n).filter (·.message.checkId? = some c) :=
  Table.get?_filter _ _ _

theorem get?_callbacks_part (r : Runner) (c : String) (n : Nat) : (r.part c).callbacks.get? n =
    (r.callbacks.get? n).filter (·.state.checkId = c) :=
  Table.get?_filter _ _ _

theorem get?_calls_of_checkId (own : r.checkId? n = some c) :
    (r.part c).calls.get? n = r.calls.get? n := by
  obtain ⟨message, found, check⟩ := Option.bind_eq_some_iff.mp own
  obtain ⟨call, at_n, rfl⟩ := Option.map_eq_some_iff.mp found
  rw [get?_calls_part, at_n, Option.filter_some, if_pos (by simpa using check)]

theorem outside_of_checkId?_ne (other : r.checkId? n ≠ some c) :
    ∀ call, r.calls.get? n = some call → decide (call.message.checkId? = some c) = false := by
  intro call found
  simpa [checkId?, message?, found] using other

theorem get?_calls_of_checkId_ne (other : r.checkId? n ≠ some c) :
    (r.part c).calls.get? n = none :=
  Table.get?_filter_of_not (outside_of_checkId?_ne other)

theorem checkId?_part (own : r.checkId? n = some c) : (r.part c).checkId? n = some c := by
  unfold checkId? message?
  rw [get?_calls_of_checkId own]
  exact own

theorem get?_callbacks_of_named (own : r.named? n = some c) :
    (r.part c).callbacks.get? n = r.callbacks.get? n := by
  obtain ⟨callback, found, check⟩ := Option.map_eq_some_iff.mp own
  rw [get?_callbacks_part, found, Option.filter_some, if_pos (by simpa using check)]

theorem named?_part (own : r.named? n = some c) : (r.part c).named? n = some c := by
  unfold named?
  rw [get?_callbacks_of_named own]
  exact own

/-! ### Steps of the calls of the check -/

/-- What becomes of a call of the check becomes of it in the part. -/
theorem modify_calls_part (r : Runner) (c : String) (n : Nat) {f : Call → Call}
    (same : ∀ call, (f call).message = call.message) : (r.part c).calls.modify n f =
      (r.calls.modify n f).filter fun _ call => call.message.checkId? = some c :=
  Table.modify_filter fun call => by rw [same]

theorem move_part (r : Runner) (c : String) (n : Nat) (s : Stage) :
    (r.part c).move n s = (r.move n s).part c := by
  unfold move
  rw [modify_calls_part r c n]
  · rfl
  · exact fun _ => rfl

theorem read_part (r : Runner) (c : String) (n : Nat) (body : String) :
    (r.part c).read n body = (r.read n body).part c := by
  unfold read
  split <;> exact move_part r c n _

theorem register_part (own : job.checkId = c) :
    (r.part c).register n job = ((r.register n job).1.part c, (r.register n job).2) := by
  have same : (r.part c).registry.contains job.checkId = r.registry.contains job.checkId := by
    rw [Table.contains, get?_registry_part, if_pos own]
    rfl
  have added : (r.part c).registry.set job.checkId ⟨n, none⟩ =
      (r.registry.set job.checkId ⟨n, none⟩).filter fun d _ => d = c :=
    Table.set_filter (decide_eq_true own)
  unfold register
  rw [same, added, move_part, move_part]
  split <;> rfl

theorem unregister_part (own : job.checkId = c) (outcome : Except RunError Bytes) :
    (r.part c).unregister n job outcome =
      ((r.unregister n job outcome).1.part c, (r.unregister n job outcome).2) := by
  have same : (r.part c).registry.get? job.checkId = r.registry.get? job.checkId := by
    rw [get?_registry_part, if_pos own]
  have erased : { r.part c with registry := (r.part c).registry.erase job.checkId } =
      Runner.part { r with registry := r.registry.erase job.checkId } c :=
    congrArg (fun registry : Table String Registration => { r.part c with registry })
      (Table.erase_filter _ _ _)
  unfold unregister
  rw [same]
  dsimp only
  rw [erased]
  cases outcome with
  | error e => exact Prod.ext (move_part _ c n _) rfl
  | ok output =>
    dsimp only
    split
    · exact Prod.ext (move_part _ c n _) rfl
    · exact Prod.ext (move_part _ c n _) rfl

/-- **A call of the check** goes on in the part as it does in the runner. -/
theorem advance_part (hr : r.Consistent) (unasked : r.abortList = none)
    (own : r.checkId? n = some c) (h : r.advance n a = some (r', out)) :
    (r.part c).advance n a = some (r'.part c, out) := by
  simp only [advance, Option.bind_eq_bind, get?_calls_of_checkId own] at h ⊢
  obtain ⟨call, found, h⟩ := Option.bind_eq_some_iff.mp h
  -- wherever the call stands, it is about the check, so it keeps to the part of the registry
  have about : ∀ d, call.stage.checkId? = some d → d = c := by
    intro d check
    have mine := hr.check (n := n) (by simp [stage?, found]) check
    rw [own] at mine
    exact (Option.some.inj mine).symm
  rw [found, Option.bind_some]
  obtain ⟨message, stage, aborted⟩ := call
  dsimp only at h about ⊢
  split at h
  case h_1 =>
    cases h
    simp only [read_part]
  case h_2 =>
    rw [unasked] at h
    cases h
  case h_3 job =>
    simp only [Option.some.injEq] at h
    simp only [register_part (about _ rfl), h]
  case h_4 => cases h; simp only [move_part]; rfl
  case h_5 | h_8 => cases h; simp only [move_part]
  case h_6 job outcome =>
    simp only [Option.some.injEq] at h
    simp only [unregister_part (about _ rfl), h]
  case h_7 =>
    cases h
    simp only [conclude, move_part]
  case h_9 => cases h

/-! ### Aborts and callbacks -/

theorem token?_part (hr : r.Consistent) : (r.part c).token? c = r.token? c := by
  unfold token? owner?
  rw [get?_registry_part, if_pos rfl]
  cases own : r.registry.get? c with
  | none => rfl
  | some g =>
    have mine := hr.checkId?_of_owner? (c := c) (n := g.owner) (by simp [owner?, own])
    simp only [Option.map_some, Option.bind_eq_bind, Option.bind_some,
      get?_calls_of_checkId mine]
    rfl

theorem abort_part (r : Runner) (c : String) :
    (r.part c).abort c = (r.abort c).map (·.part c) := by
  unfold abort
  rw [get?_registry_part, if_pos rfl]
  split
  · rfl
  · rw [modify_calls_part r c]
    · rfl
    · exact fun _ => rfl

theorem set_callbacks_part (mine : state.checkId = c) (stage : CallbackStage) :
    (r.part c).callbacks.set n ⟨state, stage⟩ =
      (r.callbacks.set n ⟨state, stage⟩).filter fun _ callback => callback.state.checkId = c :=
  Table.set_filter (decide_eq_true mine)

theorem report_part (r : Runner) (n : Nat) (state : CheckState) :
    (r.part state.checkId).report n state = (r.report n state).map (·.part state.checkId) := by
  have same : (r.part state.checkId).registry.contains state.checkId =
      r.registry.contains state.checkId := by
    rw [Table.contains, get?_registry_part, if_pos rfl]
    rfl
  have remembered (f : Registration → Registration) :
      (r.part state.checkId).registry.modify state.checkId f =
        (r.registry.modify state.checkId f).filter fun d _ => d = state.checkId :=
    Table.modify_filter fun _ => rfl
  unfold report
  rw [same, remembered, set_callbacks_part rfl]
  split <;> rfl

/-! ### Events -/

/-- **An event that concerns a check** does to its part what it does to the runner. -/
theorem step_part (hr : r.Consistent) (unasked : r.abortList = none)
    (concerns : r.concerns c e = true) (h : r.step e = some (r', out)) :
    (r.part c).step e = some (r'.part c, out) := by
  cases e with
  | deliver n message =>
    obtain ⟨fresh, h⟩ := Option.ite_none_left_eq_some.mp h
    cases h
    have fresh' : ¬ (r.part c).calls.contains n = true := Table.not_contains_filter fresh
    have delivered : (r.part c).calls.set n ⟨message, .received, false⟩ =
        (r.calls.set n ⟨message, .received, false⟩).filter
          fun _ call => call.message.checkId? = some c := Table.set_filter concerns
    simp only [step, if_neg fresh', deliver, delivered]
    rfl
  | advance n a => exact advance_part hr unasked (of_decide_eq_true concerns) h
  | abort d =>
    obtain rfl : d = c := of_decide_eq_true concerns
    cases h
    simp only [step, abort_part]
    cases r.abort d <;> rfl
  | stopAll =>
    cases h
    rfl
  | report n state =>
    obtain rfl : state.checkId = c := of_decide_eq_true concerns
    obtain ⟨fresh, h⟩ := Option.ite_none_left_eq_some.mp h
    cases h
    have fresh' : ¬ (r.part state.checkId).callbacks.contains n = true :=
      Table.not_contains_filter fresh
    simp only [step, if_neg fresh', report_part]
    cases r.report n state <;> rfl
  | forward n =>
    have named : r.named? n = some c := of_decide_eq_true concerns
    simp only [step, get?_callbacks_of_named named] at h ⊢
    split at h
    · next state found =>
      cases h
      have mine : state.checkId = c := by simpa [named?, found] using named
      rw [set_callbacks_part mine]
      rfl
    · cases h
  | answer n ok =>
    have named : r.named? n = some c := of_decide_eq_true concerns
    simp only [step, get?_callbacks_of_named named] at h ⊢
    split at h
    · next state found =>
      cases h
      have mine : state.checkId = c := by simpa [named?, found] using named
      rw [set_callbacks_part mine]
      rfl
    · cases h

theorem Turn.abortList_of_none {m : Message} {s : Stage} {t : Turned} (turn : Turn r n m s a t)
    (unasked : r.abortList = none) : t.abortList = none := by
  cases turn with
  | look asked => rw [unasked] at asked; cases asked
  | _ => exact unasked

theorem abortList_of_none (unasked : r.abortList = none) (h : r.step e = some (r', out)) :
    r'.abortList = none := by
  by_cases goes : ∃ n a, e = .advance n a
  · obtain ⟨n, a, rfl⟩ := goes
    obtain ⟨call, t, -, turn, rfl, -⟩ := turn_of_advance h
    exact turn.abortList_of_none unasked
  · exact (abortList_of_step h fun n a same => goes ⟨n, a, same⟩).trans unasked

theorem part_of_deliver {message : Message} (other : message.checkId? ≠ some c)
    (h : r.step (.deliver n message) = some (r', out)) : r'.part c = r.part c := by
  cases happens_of_step h with
  | deliver fresh =>
    have calls : ((r.calls.set n ⟨message, .received, false⟩).filter
        fun _ call => call.message.checkId? = some c) = (r.part c).calls :=
      Table.filter_set_of_not (decide_eq_false other) (by simp [fresh])
    simp only [deliver, part, calls]

theorem part_of_advance (hr : r.Consistent) (unasked : r.abortList = none)
    (other : r.checkId? n ≠ some c) (h : r.advance n a = some (r', out)) :
    r'.part c = r.part c := by
  obtain ⟨call, t, found, turn, rfl, -⟩ := turn_of_advance h
  have about : ∀ d, call.stage.checkId? = some d → d ≠ c := by
    rintro d check rfl
    exact other (hr.check (n := n) (by simp [stage?, found]) check)
  have outside (d : String) (ne : d ≠ c) :
      ∀ g, r.registry.get? d = some g → decide (d = c) = false := fun _ _ => decide_eq_false ne
  have registry : (t.registry.filter fun d _ => d = c) = (r.part c).registry := by
    rcases turn.registry_cases with ⟨same, -⟩ | ⟨job, stage, -, -, same⟩ |
      ⟨job, outcome, stage, -, -, same⟩ <;> rw [same]
    · rfl
    · have ne := about job.checkId (by rw [stage]; rfl)
      exact Table.filter_set_of_not (decide_eq_false ne) (outside _ ne)
    · have ne := about job.checkId (by rw [stage]; rfl)
      exact Table.filter_erase_of_not (outside _ ne)
  have calls : ((r.calls.modify n fun call => { call with stage := t.stage }).filter
      fun _ call => call.message.checkId? = some c) = (r.part c).calls :=
    Table.filter_modify_of_not (fun _ => rfl) (outside_of_checkId?_ne other)
  simp only [turned, part, turn.abortList_of_none unasked, registry, calls, unasked]

theorem part_of_abort (hr : r.Consistent) (other : d ≠ c)
    (h : r.step (.abort d) = some (r', out)) : r'.part c = r.part c := by
  cases happens_of_step h with
  | lapse => rfl
  | @abort _ g registered =>
    have owner : r.checkId? g.owner = some d :=
      hr.checkId?_of_owner? (by simp [owner?, registered])
    have elsewhere : r.checkId? g.owner ≠ some c := by simpa [owner] using other
    have calls : ((r.calls.modify g.owner fun call => { call with aborted := true }).filter
        fun _ call => call.message.checkId? = some c) = (r.part c).calls :=
      Table.filter_modify_of_not (fun _ => rfl) (outside_of_checkId?_ne elsewhere)
    simp only [part, calls]

theorem part_of_report (other : state.checkId ≠ c)
    (h : r.step (.report n state) = some (r', out)) : r'.part c = r.part c := by
  cases happens_of_step h with
  | refuse => rfl
  | take fresh =>
    have registry (f : Registration → Registration) :
        ((r.registry.modify state.checkId f).filter fun d _ => d = c) = (r.part c).registry :=
      Table.filter_modify_of_not (fun _ => rfl) fun _ _ => decide_eq_false other
    have callbacks : ((r.callbacks.set n ⟨state, .recorded⟩).filter
        fun _ callback => callback.state.checkId = c) = (r.part c).callbacks :=
      Table.filter_set_of_not (decide_eq_false other) (by simp [fresh])
    simp only [part, registry, callbacks]

theorem part_of_set_callback {stage : CallbackStage} (other : r.named? n ≠ some c)
    (found : r.callbacks.get? n = some ⟨state, stage⟩) (stage' : CallbackStage) :
    Runner.part { r with callbacks := r.callbacks.set n ⟨state, stage'⟩ } c = r.part c := by
  have ne : state.checkId ≠ c := by simpa [named?, found] using other
  have outside : ∀ callback, r.callbacks.get? n = some callback →
      decide (callback.state.checkId = c) = false := by
    intro callback same
    rw [found] at same
    cases same
    exact decide_eq_false ne
  have callbacks : ((r.callbacks.set n ⟨state, stage'⟩).filter
      fun _ callback => callback.state.checkId = c) = (r.part c).callbacks :=
    Table.filter_set_of_not (decide_eq_false ne) outside
  simp only [part, callbacks]

/-- **An event that does not concern a check** leaves its part alone. -/
theorem part_of_step (hr : r.Consistent) (unasked : r.abortList = none)
    (concerns : r.concerns c e = false) (h : r.step e = some (r', out)) :
    r'.part c = r.part c := by
  cases e with
  | deliver n message => exact part_of_deliver (of_decide_eq_false concerns) h
  | advance n a => exact part_of_advance hr unasked (of_decide_eq_false concerns) h
  | abort d => exact part_of_abort hr (of_decide_eq_false concerns) h
  | stopAll => cases concerns
  | report n state => exact part_of_report (of_decide_eq_false concerns) h
  | forward n =>
    cases happens_of_step h with
    | forward taken => exact part_of_set_callback (of_decide_eq_false concerns) taken _
  | answer n ok =>
    cases happens_of_step h with
    | answer forwarded => exact part_of_set_callback (of_decide_eq_false concerns) forwarded _

/-! ### Effects -/

theorem Turn.checkId_of_effect {m : Message} {s : Stage} {t : Turned} {effect : Effect}
    (turn : Turn r n m s a t) (mem : effect ∈ t.effects) : s.checkId? = some effect.checkId := by
  cases turn with
  | refuse | register | begin | fail | close | upload | link =>
    cases List.mem_singleton.mp mem
    rfl
  | _ => cases mem

theorem concerns_of_effect (hr : r.Consistent) (h : r.step e = some (r', out)) {effect : Effect}
    (mem : effect ∈ out) : r.concerns effect.checkId e = true := by
  cases happens_of_step h with
  | @turn n a call t found turn =>
    exact decide_eq_true (hr.check (n := n) (by simp [stage?, found]) (turn.checkId_of_effect mem))
  | forward taken =>
    cases List.mem_singleton.mp mem
    exact decide_eq_true (by simp [named?, taken, Effect.checkId])
  | deliver | abort | lapse | stopAll | take | refuse | answer => cases mem

/-! ### Requests -/

theorem callbacks_of_report {state : CheckState} (taken : r.report n state = .ok r') :
    r'.callbacks = r.callbacks.set n ⟨state, .recorded⟩ := by
  unfold report at taken
  split at taken <;> cases taken
  rfl

theorem reportAndForward_runner (fresh : r.callbacks.get? n = none)
    (refusal : CheckState → Option ReportError) (state : CheckState) :
    (r.reportAndForward n refusal state).runner =
      (r.history [.report n state, .forward n, .answer n (refusal state).isNone]).now := by
  have absent : r.callbacks.contains n = false := by simp [Table.contains, fresh]
  unfold reportAndForward history
  simp only [List.foldl_cons, List.foldl_nil, History.next, step, absent, Bool.false_eq_true,
    if_false]
  cases taken : r.report n state with
  | error e => simp only [Except.toOption, Option.getD, fresh]
  | ok r₁ =>
    have recorded := callbacks_of_report taken
    simp only [Except.toOption, Option.getD, recorded, Table.get?_set, if_true, Table.set_set]

/-- **A request** does what its events do. -/
theorem serveCall_runner (fresh : r.callbacks.get? n = none) (context : ServeContext)
    (call : ApiCall) :
    (r.serveCall n context call).runner = (r.history (call.events n context.refusal)).now := by
  cases call with
  | health | stats => rfl
  | update d update => exact reportAndForward_runner fresh _ _
  | abort d =>
    simp only [serveCall, ApiCall.events, history, List.foldl_cons, List.foldl_nil, History.next,
      step]
    cases r.abort d <;> rfl

theorem reportAndForward_part (r : Runner) (n : Nat) (refusal : CheckState → Option ReportError)
    (state : CheckState) : (r.part state.checkId).reportAndForward n refusal state =
      { r.reportAndForward n refusal state with
        runner := (r.reportAndForward n refusal state).runner.part state.checkId } := by
  unfold reportAndForward
  rw [report_part]
  cases r.report n state with
  | error e => rfl
  | ok r₁ =>
    simp only [Except.map, set_callbacks_part rfl]
    rfl

/-- **A request that names the check** is served by the part as by the runner. -/
theorem serveCall_part (r : Runner) (n : Nat) (context : ServeContext) {call : ApiCall}
    (names : call.checkId? = some c) :
    (r.part c).serveCall n context call = { r.serveCall n context call with
      runner := (r.serveCall n context call).runner.part c } := by
  cases call with
  | health | stats => cases names
  | abort d =>
    obtain rfl : d = c := Option.some.inj names
    simp only [serveCall, abort_part]
    cases r.abort d <;> rfl
  | update d update =>
    obtain rfl : d = c := Option.some.inj names
    simp only [serveCall, reportAndForward_part r n context.refusal
      ⟨d, update.status, update.progress, none⟩]

end Runner

/-! ## What is seen of a check -/

namespace Moment

variable {m : Moment} {c : String}

theorem replies_part (concerns : m.before.concerns c m.event = true) :
    (m.part c).replies c = m.replies c := by
  obtain ⟨before, event, out, after⟩ := m
  cases event with
  | advance n a =>
    have own : before.checkId? n = some c := of_decide_eq_true concerns
    simp only [replies, part, checkId?_part own, own]
  | abort d =>
    obtain rfl : d = c := of_decide_eq_true concerns
    simp only [replies, part, abort_part]
    cases before.abort d <;> rfl
  | report n state =>
    obtain rfl : state.checkId = c := of_decide_eq_true concerns
    simp only [replies, part, report_part]
    cases before.report n state <;> rfl
  | answer n ok =>
    have named : before.named? n = some c := of_decide_eq_true concerns
    simp only [replies, part, named?_part named, named]
  | deliver | stopAll | forward => rfl

theorem replies_of_not (other : m.before.concerns c m.event = false) : m.replies c = [] := by
  obtain ⟨before, event, out, after⟩ := m
  cases event with
  | advance | abort | report | answer => exact if_neg (of_decide_eq_false other)
  | deliver | stopAll | forward => rfl

theorem disposals_part (m : Moment) (c : String) : (m.part c).disposals c = m.disposals c := by
  show (match m.event.call?.bind (m.after.part c).calls.get? with
    | some ⟨message, .done d, _⟩ => if message.checkId? = some c then [.disposed message d] else []
    | _ => []) = m.disposals c
  unfold disposals
  cases m.event.call? with
  | none => rfl
  | some n =>
    rw [Option.bind_some, Option.bind_some, get?_calls_part]
    cases m.after.calls.get? n with
    | none => rfl
    | some call =>
      obtain ⟨message, stage, aborted⟩ := call
      by_cases own : message.checkId? = some c
      · rw [Option.filter_some, if_pos (decide_eq_true own)]
      · rw [Option.filter_some, if_neg (by simpa using own)]
        cases stage <;> simp [own]

theorem Sound.call_of_not (sound : m.Sound) (other : m.before.concerns c m.event = false) :
    m.event.call?.bind (m.before.part c).calls.get? = none := by
  obtain ⟨before, event, out, after⟩ := m
  cases event with
  | deliver n message =>
    obtain ⟨fresh, -⟩ := Option.ite_none_left_eq_some.mp sound.step
    have absent : before.calls.get? n = none := Table.get?_of_not_contains fresh
    simp [RunnerEvent.call?, get?_calls_part, absent]
  | advance n a => exact get?_calls_of_checkId_ne (of_decide_eq_false other)
  | _ => rfl

/-- **A moment that concerns a check** shows of it what it shows in its part. -/
theorem Sound.seen_part (sound : m.Sound) (concerns : m.before.concerns c m.event = true) :
    (m.part c).seen c = m.seen c := by
  have tokens : (m.part c).tokens c = m.tokens c := by
    simp only [Moment.tokens, part, token?_part sound.consistent,
      token?_part (sound.consistent.step sound.step)]
  simp only [seen, replies_part concerns, tokens, disposals_part]
  rfl

/-- **A moment that does not concern a check** shows nothing of it. -/
theorem Sound.seen_of_not (sound : m.Sound) (unasked : m.before.abortList = none)
    (other : m.before.concerns c m.event = false) : m.seen c = [] := by
  have alone := part_of_step sound.consistent unasked other sound.step
  have effects : m.effects.filter (·.checkId = c) = [] := by
    refine List.filter_eq_nil_iff.mpr fun effect mem about => ?_
    have concerns := concerns_of_effect sound.consistent sound.step mem
    rw [of_decide_eq_true about, other] at concerns
    cases concerns
  -- the token can be read off the part, and so can the end of a call
  have tokens : m.tokens c = [] := by
    refine if_pos ?_
    rw [← token?_part (sound.consistent.step sound.step), alone, token?_part sound.consistent]
  have disposals : m.disposals c = [] := by
    have none := sound.call_of_not other
    rw [← alone] at none
    rw [← disposals_part]
    simp only [Moment.disposals, part, none]
  rw [seen, replies_of_not other, effects, tokens, disposals]
  rfl

theorem answers_part {k : Collaborators} (concerns : m.before.concerns c m.event = true)
    (obeys : k.Answers m) : k.Answers (m.part c) := by
  obtain ⟨before, event, out, after⟩ := m
  cases event with
  | advance n a =>
    intro call found
    rw [part, get?_calls_of_checkId (of_decide_eq_true concerns)] at found
    exact obeys call found
  | answer n ok =>
    intro callback found
    rw [part, get?_callbacks_of_named (of_decide_eq_true concerns)] at found
    exact obeys callback found
  | _ => trivial

end Moment

/-! ## Histories -/

namespace History

variable {c : String}

theorem concerning_after (h : History) (e : RunnerEvent) (out : List Effect) (r' : Runner) :
    (h.after e out r').concerning c =
      h.concerning c ++ if h.now.concerns c e then [e] else [] := by
  unfold concerning after
  rw [List.filter_append, List.map_append]
  by_cases concerns : h.now.concerns c e <;> simp [concerns]

theorem part_after (h : History) (e : RunnerEvent) (out : List Effect) (r' : Runner) :
    (h.after e out r').part c =
      if h.now.concerns c e then (h.part c).after e out (r'.part c)
      else { h.part c with now := r'.part c } := by
  unfold part after
  rw [List.filter_append, List.map_append]
  by_cases concerns : h.now.concerns c e <;> simp [concerns, Moment.part]

theorem seen_after (h : History) (e : RunnerEvent) (out : List Effect) (r' : Runner) :
    (h.after e out r').seen c = h.seen c ++ (Moment.mk h.now e out r').seen c := by
  simp [seen, after]

variable (timeLimit : Span) (events : List RunnerEvent) (c)

/-- Induction over the histories of a runner without a list of aborted checks. -/
theorem induct_unasked {P : History → Prop} (start : P ⟨[], Runner.start timeLimit none⟩)
    (next : ∀ (h : History) (e : RunnerEvent) (r' : Runner) (out : List Effect),
      h.now.Consistent → h.now.abortList = none → P h → h.now.step e = some (r', out) →
        P (h.after e out r')) :
    P ((Runner.start timeLimit none).history events) := by
  refine (induct_consistent timeLimit none events
    (P := fun h => h.now.abortList = none ∧ P h) ⟨rfl, start⟩ ?_).2
  rintro h e r' out hr ⟨unasked, ih⟩ step
  exact ⟨abortList_of_none unasked step, next h e r' out hr unasked ih step⟩

theorem moment_unasked {m : Moment}
    (hm : m ∈ ((Runner.start timeLimit none).history events).moments) :
    m.before.abortList = none := by
  refine induct_unasked timeLimit events (P := fun h => ∀ m ∈ h.moments, m.before.abortList = none)
    (List.forall_mem_nil _) (fun h e r' out _ unasked ih _ m hm => ?_) m hm
  rcases mem_after.mp hm with hm | rfl
  · exact ih m hm
  · exact unasked

/-- **The history of a part.** What comes of the events that concern a check is the part of what
came of all events. -/
theorem history_concerning :
    (Runner.start timeLimit none).history
        (((Runner.start timeLimit none).history events).concerning c) =
      ((Runner.start timeLimit none).history events).part c := by
  refine induct_unasked timeLimit events
    (P := fun h => (Runner.start timeLimit none).history (h.concerning c) = h.part c) rfl ?_
  intro h e r' out hr unasked ih step
  rw [concerning_after, part_after]
  cases concerns : h.now.concerns c e with
  | true =>
    have goes : (h.part c).now.step e = some (r'.part c, out) :=
      step_part hr unasked concerns step
    rw [if_pos rfl, if_pos rfl, history_snoc, ih, next, goes]
    rfl
  | false =>
    have alone := part_of_step hr unasked concerns step
    rw [if_neg (by simp), if_neg (by simp), List.append_nil, ih, alone]
    rfl

theorem seen_part : (((Runner.start timeLimit none).history events).part c).seen c =
    ((Runner.start timeLimit none).history events).seen c := by
  refine induct_unasked timeLimit events (P := fun h => (h.part c).seen c = h.seen c) rfl ?_
  intro h e r' out hr unasked ih step
  have sound : (Moment.mk h.now e out r').Sound := ⟨hr, step⟩
  rw [part_after, seen_after]
  cases concerns : h.now.concerns c e with
  | true =>
    rw [if_pos rfl, seen_after, ih]
    exact congrArg _ (sound.seen_part concerns)
  | false =>
    rw [if_neg (by simp), sound.seen_of_not unasked concerns, List.append_nil]
    exact ih

/-- **Checks do not disturb each other.** -/
theorem checks_isolated : Isolated ((Runner.start timeLimit none).history events)
    ((Runner.start timeLimit none).history
      (((Runner.start timeLimit none).history events).concerning c)) c := by
  rw [history_concerning]
  refine {
    happens := by rw [part, List.map_map]; rfl
    seen := seen_part c timeLimit events
    silent := fun m hm => (moment_sound timeLimit none events hm).seen_of_not
      (moment_unasked timeLimit events hm)
    requests := fun n context request call asks names => ?_
    events := fun n context call fresh => serveCall_runner fresh context call
    obeys := fun k obeys m hm => ?_ }
  · have served := serveCall_part ((Runner.start timeLimit none).history events).now n context names
    simp only [part, serve, asks, served, and_self]
  · obtain ⟨whole, mem, rfl⟩ := List.mem_map.mp hm
    obtain ⟨mem, concerns⟩ := List.mem_filter.mp mem
    exact Moment.answers_part concerns (obeys whole mem)

end History

end CheckAgent
