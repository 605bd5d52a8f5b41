import Mathlib.Data.List.Induction
import CheckAgent.Runner.Basic

/-!
# Histories of the runner

A history is what comes of events that happen one after another: deliveries, the steps of the calls
between two points at which they wait, aborts, callbacks. **A moment** is one event with the runner
before and after it and its effects. An event that cannot happen is passed over, so that every list
of events has a history and every interleaving is the history of some list.

A runner is looked at through three views, the stage and the message of each call and the owner of
each registered check. `Turn` says what a call does when it goes on, `Happens` what an event does,
and `Step` what an event makes of the views. Every invariant is proved over one of them once and
carried along by `History.induct`.
-/

namespace CheckAgent

open CheckAgent.Text

/-- The check that a message asks for, if it holds a job. -/
def Message.checkId? (m : Message) : Option String := (Job.decode m.body).toOption.map (·.checkId)

def Message.asking (id checkId : String) : Message :=
  ⟨id, "[\"" ++ checkId ++ "\", \"2024-03-05 10:11:12 UTC\", null, \"checks/nmap:1\", \"host\"]"⟩

namespace Runner

/-! ## Views -/

def stage? (r : Runner) (n : Nat) : Option Stage := (r.calls.get? n).map (·.stage)

def message? (r : Runner) (n : Nat) : Option Message := (r.calls.get? n).map (·.message)

def checkId? (r : Runner) (n : Nat) : Option String := (r.message? n).bind (·.checkId?)

/-- The call that runs a registered check. -/
def owner? (r : Runner) (checkId : String) : Option Nat := (r.registry.get? checkId).map (·.owner)

/-- The status of a run of a check that succeeds: the final one that the check last reported. -/
def success (r : Runner) (checkId : String) : Status :=
  ((r.registry.get? checkId).bind (·.reported)).getD .finished

theorem contains_eq_isSome_owner? (r : Runner) (c : String) :
    r.registry.contains c = (r.owner? c).isSome := by
  simp [Table.contains, owner?]

theorem stage?_move {r : Runner} {n : Nat} {s : Stage} (stage : r.stage? n = some s)
    (next : Stage) : (r.move n next).stage? n = some next := by
  obtain ⟨call, hc, -⟩ := Option.map_eq_some_iff.mp stage
  simp [move, stage?, Table.get?_modify, hc]

/-! ## What a call does -/

/-- A runner as a step of a call leaves it: the new stage of the call, the registry, the list of
aborted checks, and the effects. -/
structure Turned where
  stage : Stage
  registry : Table String Registration
  abortList : Option AbortList
  effects : List Effect

def turned (r : Runner) (n : Nat) (t : Turned) : Runner :=
  { r with
    calls := r.calls.modify n fun c => { c with stage := t.stage }
    registry := t.registry
    abortList := t.abortList }

/-- A step with no effect but on the stage. -/
def quiet (r : Runner) (stage : Stage) : Turned := ⟨stage, r.registry, r.abortList, []⟩

/-- A step that sends a state. -/
def saying (r : Runner) (n : Nat) (stage : Stage) (state : CheckState) : Turned :=
  ⟨stage, r.registry, r.abortList, [.sent n state]⟩

/-- The steps of a lookup: its next stage, and the list of aborted checks. -/
inductive LookupTurn (list : AbortList) (checkId : String) :
    Lookup → Answer → Lookup → AbortList → Prop where
  | check : LookupTurn list checkId .checking .onward (list.check checkId) list
  | answer {i : Nat} {x : Exchange} {chance : Chance} :
      LookupTurn list checkId (.requesting i) (.exchange x chance) (list.answer i x chance) list
  | rest {i : Nat} {d : Span} :
      LookupTurn list checkId (.resting i d) .rested (.requesting i) list
  | store {names : List String} :
      LookupTurn list checkId (.storing names) .onward (list.store checkId names).2
        (list.store checkId names).1

/-- The steps of call `n`, which deals with message `m`. -/
inductive Turn (r : Runner) (n : Nat) (m : Message) : Stage → Answer → Turned → Prop where
  | discard {e : Json.Error} (unreadable : Job.decode m.body = .error e) :
      Turn r n m .received .onward (r.quiet (.done .delete))
  | consult {job : Job} {list : AbortList} (holds : Job.decode m.body = .ok job)
      (asked : r.abortList = some list) :
      Turn r n m .received .onward (r.quiet (.lookingUp job .checking))
  | pass {job : Job} (holds : Job.decode m.body = .ok job) (unasked : r.abortList = none) :
      Turn r n m .received .onward (r.quiet (.admitted job))
  | look {job : Job} {list list' : AbortList} {l l' : Lookup} {a : Answer}
      (asked : r.abortList = some list) (turn : LookupTurn list job.checkId l a l' list') :
      Turn r n m (.lookingUp job l) a ⟨.lookingUp job l', r.registry, list', []⟩
  | clear {job : Job} : Turn r n m (.lookingUp job (.found false)) .onward (r.quiet (.admitted job))
  | refuse {job : Job} :
      Turn r n m (.lookingUp job (.found true)) .onward
        (r.saying n (.concluding (.plain job.checkId .aborted)) (.plain job.checkId .aborted))
  | postpone {job : Job} {e : AbortListError} :
      Turn r n m (.lookingUp job (.failed e)) .onward (r.quiet (.done .keep))
  | collapse {job : Job} {why : SpanFault} :
      Turn r n m (.lookingUp job (.broken why)) .onward (r.quiet .broken)
  | drop {job : Job} (taken : (r.owner? job.checkId).isSome) :
      Turn r n m (.admitted job) .onward (r.quiet (.done .delete))
  | register {job : Job} (free : r.owner? job.checkId = none) :
      Turn r n m (.admitted job) .onward
        ⟨.announcing job, r.registry.set job.checkId ⟨n, none⟩, r.abortList,
          [.sent n (.plain job.checkId .running)]⟩
  | begin {job : Job} {ok : Bool} :
      Turn r n m (.announcing job) (.accepted ok)
        ⟨.running job, r.registry, r.abortList, [.started n (.ofJob job r.timeLimit)]⟩
  | finish {job : Job} {outcome : Except RunError Bytes} :
      Turn r n m (.running job) (.outcome outcome) (r.quiet (.ended job outcome))
  | fail {job : Job} {e : RunError} :
      Turn r n m (.ended job (.error e)) .onward
        ⟨.concluding (.plain job.checkId e.status), r.registry.erase job.checkId, r.abortList,
          [.sent n (.plain job.checkId e.status)]⟩
  | close {job : Job} :
      Turn r n m (.ended job (.ok [])) .onward
        ⟨.concluding (.plain job.checkId (r.success job.checkId)), r.registry.erase job.checkId,
          r.abortList, [.sent n (.plain job.checkId (r.success job.checkId))]⟩
  | upload {job : Job} {output : Bytes} (some : output ≠ []) :
      Turn r n m (.ended job (.ok output)) .onward
        ⟨.uploading job (r.success job.checkId), r.registry.erase job.checkId, r.abortList,
          [.uploaded n job.checkId job.startTime output]⟩
  | link {job : Job} {status : Status} {url : Option String} :
      Turn r n m (.uploading job status) (.link url)
        (r.saying n (.concluding { CheckState.plain job.checkId status with raw := url })
          { CheckState.plain job.checkId status with raw := url })
  | settle {state : CheckState} {ok : Bool} :
      Turn r n m (.concluding state) (.accepted ok)
        (r.quiet (.done (if ok then .delete else .keep)))

theorem lookupTurn_of_advanceLookup {r r' : Runner} {n : Nat} {job : Job} {list : AbortList}
    {l : Lookup} {a : Answer} {out : List Effect} {m : Message} (asked : r.abortList = some list)
    (h : r.advanceLookup n job list l a = some (r', out)) :
    ∃ t, Turn r n m (.lookingUp job l) a t ∧ r' = r.turned n t ∧ out = t.effects := by
  unfold advanceLookup at h
  split at h <;> cases h
  case h_1 => exact ⟨_, .look asked .check, by simp [turned, move, asked], rfl⟩
  case h_2 => exact ⟨_, .look asked .answer, by simp [turned, move, asked], rfl⟩
  case h_3 => exact ⟨_, .look asked .rest, by simp [turned, move, asked], rfl⟩
  case h_4 => exact ⟨_, .look asked .store, rfl, rfl⟩
  case h_5 => exact ⟨_, .refuse, by simp [turned, move, saying], rfl⟩
  case h_6 => exact ⟨_, .clear, by simp [turned, move, quiet], rfl⟩
  case h_7 => exact ⟨_, .postpone, by simp [turned, move, quiet], rfl⟩
  case h_8 => exact ⟨_, .collapse, by simp [turned, move, quiet], rfl⟩

theorem turn_of_read (r : Runner) (n : Nat) (m : Message) :
    ∃ t, Turn r n m .received .onward t ∧ r.read n m.body = r.turned n t ∧ t.effects = [] := by
  unfold read
  split
  · next e unreadable => exact ⟨_, .discard unreadable, by simp [turned, move, quiet], rfl⟩
  · next job holds =>
    cases asked : r.abortList with
    | none => exact ⟨_, .pass holds asked, by simp [turned, move, quiet, asked], rfl⟩
    | some list => exact ⟨_, .consult holds asked, by simp [turned, move, quiet, asked], rfl⟩

theorem turn_of_register (r : Runner) (n : Nat) (m : Message) (job : Job) :
    ∃ t, Turn r n m (.admitted job) .onward t ∧ r.register n job = (r.turned n t, t.effects) := by
  unfold register
  rw [contains_eq_isSome_owner?]
  split
  · next taken => exact ⟨_, .drop taken, by simp [turned, move, quiet]⟩
  · next free => exact ⟨_, .register (by simpa using free), by simp [turned, move]⟩

theorem turn_of_unregister (r : Runner) (n : Nat) (m : Message) (job : Job)
    (outcome : Except RunError Bytes) :
    ∃ t, Turn r n m (.ended job outcome) .onward t ∧
      r.unregister n job outcome = (r.turned n t, t.effects) := by
  unfold unregister
  cases outcome with
  | error e => exact ⟨_, .fail, by simp [turned, move, conclude]⟩
  | ok output =>
    cases output with
    | nil => exact ⟨_, .close, by simp [turned, move, conclude, success]⟩
    | cons b rest => exact ⟨_, .upload (by simp), by simp [turned, move, success]⟩

/-- **What a call does.** A step of a call is one of `Turn`. -/
theorem turn_of_advance {r r' : Runner} {n : Nat} {a : Answer} {out : List Effect}
    (h : r.advance n a = some (r', out)) :
    ∃ c t, r.calls.get? n = some c ∧ Turn r n c.message c.stage a t ∧ r' = r.turned n t ∧
      out = t.effects := by
  simp only [advance, Option.bind_eq_bind, Option.bind_eq_some_iff] at h
  obtain ⟨c, hc, h⟩ := h
  refine ⟨c, ?_⟩
  obtain ⟨m, s, aborted⟩ := c
  dsimp only at h ⊢
  split at h
  case h_1 =>
    cases h
    obtain ⟨t, turn, eq, silent⟩ := turn_of_read r n m
    exact ⟨t, hc, turn, eq, silent.symm⟩
  case h_2 =>
    split at h
    · next list asked =>
      obtain ⟨t, turn, eq, out⟩ := lookupTurn_of_advanceLookup (m := m) asked h
      exact ⟨t, hc, turn, eq, out⟩
    · cases h
  case h_3 job =>
    obtain ⟨t, turn, eq⟩ := turn_of_register r n m job
    rw [eq] at h; cases h
    exact ⟨t, hc, turn, rfl, rfl⟩
  case h_4 => cases h; exact ⟨_, hc, .begin, by simp [turned, move], rfl⟩
  case h_5 => cases h; exact ⟨_, hc, .finish, by simp [turned, move, quiet], rfl⟩
  case h_6 job outcome =>
    obtain ⟨t, turn, eq⟩ := turn_of_unregister r n m job outcome
    rw [eq] at h; cases h
    exact ⟨t, hc, turn, rfl, rfl⟩
  case h_7 => cases h; exact ⟨_, hc, .link, by simp [turned, move, saying], rfl⟩
  case h_8 => cases h; exact ⟨_, hc, .settle, by simp [turned, move, quiet], rfl⟩
  case h_9 => cases h

/-! ## What an event does -/

/-- **What an event does to a runner**, one case for each way in which it can happen. -/
inductive Happens (r : Runner) : RunnerEvent → List Effect → Runner → Prop where
  | deliver {n : Nat} {m : Message} (fresh : r.calls.get? n = none) :
      Happens r (.deliver n m) [] (r.deliver n m)
  | turn {n : Nat} {a : Answer} {call : Call} {t : Turned} (found : r.calls.get? n = some call)
      (turn : Turn r n call.message call.stage a t) :
      Happens r (.advance n a) t.effects (r.turned n t)
  | abort {c : String} {g : Registration} (registered : r.registry.get? c = some g) :
      Happens r (.abort c) []
        { r with calls := r.calls.modify g.owner fun call => { call with aborted := true } }
  | lapse {c : String} (free : r.registry.get? c = none) : Happens r (.abort c) [] r
  | stopAll : Happens r .stopAll [] { r with stopping := true }
  | take {k : Nat} {state : CheckState} (fresh : r.callbacks.get? k = none)
      (registered : r.owner? state.checkId ≠ none) :
      Happens r (.report k state) []
        { r with
          registry := r.registry.modify state.checkId fun g =>
            if state.status.isFinal then { g with reported := some state.status } else g
          callbacks := r.callbacks.set k ⟨state, .recorded⟩ }
  | refuse {k : Nat} {state : CheckState} (fresh : r.callbacks.get? k = none)
      (free : r.owner? state.checkId = none) : Happens r (.report k state) [] r
  | forward {k : Nat} {state : CheckState} (taken : r.callbacks.get? k = some ⟨state, .recorded⟩) :
      Happens r (.forward k) [.forwarded k state]
        { r with callbacks := r.callbacks.set k ⟨state, .forwarded⟩ }
  | answer {k : Nat} {state : CheckState} {ok : Bool}
      (forwarded : r.callbacks.get? k = some ⟨state, .forwarded⟩) :
      Happens r (.answer k ok) []
        { r with callbacks := r.callbacks.set k ⟨state, .answered ok⟩ }

/-- An event that happens does so in one of these ways. -/
theorem happens_of_step {r r' : Runner} {e : RunnerEvent} {out : List Effect}
    (h : r.step e = some (r', out)) : Happens r e out r' := by
  cases e with
  | deliver n m =>
    obtain ⟨fresh, h⟩ := Option.ite_none_left_eq_some.mp h
    cases h
    exact .deliver (Table.get?_of_not_contains fresh)
  | advance n a =>
    obtain ⟨call, t, found, turn, rfl, rfl⟩ := turn_of_advance h
    exact .turn found turn
  | abort c =>
    simp only [step, abort] at h
    split at h
    · next free => cases h; exact .lapse free
    · next g registered => cases h; exact .abort registered
  | stopAll => cases h; exact .stopAll
  | report k state =>
    obtain ⟨fresh, h⟩ := Option.ite_none_left_eq_some.mp h
    replace fresh : r.callbacks.get? k = none := Table.get?_of_not_contains fresh
    simp only [report, contains_eq_isSome_owner?] at h
    split at h
    · next registered => cases h; exact .take fresh (Option.isSome_iff_ne_none.mp registered)
    · next free => cases h; exact .refuse fresh (by simpa using free)
  | forward k =>
    simp only [step] at h
    split at h
    · next state taken => cases h; exact .forward taken
    · cases h
  | answer k ok =>
    simp only [step] at h
    split at h
    · next state forwarded => cases h; exact .answer forwarded
    · cases h

/-- What an event makes of the views of a runner. Besides deliveries and the steps of calls, no
event touches a stage or the owner of a check, or sends a state for a call. -/
inductive Step (r r' : Runner) : RunnerEvent → List Effect → Prop where
  | deliver {n : Nat} {m : Message} (fresh : r.stage? n = none)
      (stages : ∀ k, r'.stage? k = if k = n then some .received else r.stage? k)
      (messages : ∀ k, r'.message? k = if k = n then some m else r.message? k)
      (owners : ∀ c, r'.owner? c = r.owner? c) : Step r r' (.deliver n m) []
  | turn {n : Nat} {m : Message} {s : Stage} {a : Answer} {t : Turned}
      (stage : r.stage? n = some s) (message : r.message? n = some m) (turn : Turn r n m s a t)
      (stages : ∀ k, r'.stage? k = if k = n then some t.stage else r.stage? k)
      (messages : ∀ k, r'.message? k = r.message? k)
      (owners : ∀ c, r'.owner? c = (t.registry.get? c).map (·.owner)) :
      Step r r' (.advance n a) t.effects
  | beside {e : RunnerEvent} {out : List Effect} (noCall : ∀ n a, e ≠ .advance n a)
      (noMessage : ∀ n m, e ≠ .deliver n m)
      (stages : ∀ k, r'.stage? k = r.stage? k) (messages : ∀ k, r'.message? k = r.message? k)
      (owners : ∀ c, r'.owner? c = r.owner? c) (silent : ∀ n s, .sent n s ∉ out) : Step r r' e out

theorem stage?_deliver (r : Runner) (n : Nat) (m : Message) (k : Nat) :
    (r.deliver n m).stage? k = if k = n then some .received else r.stage? k := by
  simp only [deliver, stage?, Table.get?_set]
  split <;> rfl

theorem message?_deliver (r : Runner) (n : Nat) (m : Message) (k : Nat) :
    (r.deliver n m).message? k = if k = n then some m else r.message? k := by
  simp only [deliver, message?, Table.get?_set]
  split <;> rfl

theorem stage?_turned {r : Runner} {n : Nat} {call : Call} (found : r.calls.get? n = some call)
    (t : Turned) (k : Nat) :
    (r.turned n t).stage? k = if k = n then some t.stage else r.stage? k := by
  simp only [turned, stage?, Table.get?_modify, found]
  split <;> rfl

theorem message?_turned {r : Runner} {n : Nat} {call : Call} (found : r.calls.get? n = some call)
    (t : Turned) (k : Nat) : (r.turned n t).message? k = r.message? k := by
  simp only [turned, message?, Table.get?_modify, found]
  split
  · next same => simp [same, found]
  · rfl

theorem owner?_reported (r : Runner) (state : CheckState) (c : String) :
    ((r.registry.modify state.checkId fun g =>
      if state.status.isFinal then { g with reported := some state.status } else g).get? c).map
        (·.owner) = r.owner? c := by
  refine Table.map_get?_modify _ _ _ fun g => ?_
  split <;> rfl

/-- **What an event does to the views.** An event that happens makes one `Step` of them. -/
theorem step_of_eq {r r' : Runner} {e : RunnerEvent} {out : List Effect}
    (h : r.step e = some (r', out)) : Step r r' e out := by
  cases happens_of_step h with
  | @deliver n m fresh =>
    have unknown : r.stage? n = none := by simp [stage?, fresh]
    exact .deliver unknown (stage?_deliver r n m) (message?_deliver r n m) fun _ => rfl
  | @turn n a call t found turn =>
    have stage : r.stage? n = some call.stage := by rw [stage?, found]; rfl
    have message : r.message? n = some call.message := by rw [message?, found]; rfl
    exact .turn stage message turn (stage?_turned found _) (message?_turned found _) fun _ => rfl
  | abort =>
    exact .beside (by simp) (by simp) (fun k => Table.map_get?_modify _ _ k fun _ => rfl)
      (fun k => Table.map_get?_modify _ _ k fun _ => rfl) (fun _ => rfl) (by simp)
  | take =>
    exact .beside (by simp) (by simp) (fun _ => rfl) (fun _ => rfl) (owner?_reported r _) (by simp)
  | lapse | stopAll | refuse | forward | answer =>
    exact .beside (by simp) (by simp) (fun _ => rfl) (fun _ => rfl) (fun _ => rfl) (by simp)

end Runner

/-! ## Histories -/

/-- An event with the runner before and after it. -/
structure Moment where
  before : Runner
  event : RunnerEvent
  effects : List Effect
  after : Runner

/-- What has happened so far. -/
structure History where
  moments : List Moment
  now : Runner

namespace History

def next (h : History) (e : RunnerEvent) : History :=
  match h.now.step e with
  | some (r, out) => ⟨h.moments ++ [⟨h.now, e, out, r⟩], r⟩
  | none => h

end History

/-- What comes of events that happen to a runner one after another. -/
def Runner.history (r : Runner) (events : List RunnerEvent) : History :=
  events.foldl History.next ⟨[], r⟩

namespace History

/-- A history with one more event, its effects and what it makes of the runner. -/
def after (h : History) (e : RunnerEvent) (out : List Effect) (r' : Runner) : History :=
  ⟨h.moments ++ [⟨h.now, e, out, r'⟩], r'⟩

section

variable {h : History} {e : RunnerEvent} {out : List Effect} {r' : Runner} {m : Moment}

@[simp] theorem now_after : (h.after e out r').now = r' := rfl

theorem mem_after : m ∈ (h.after e out r').moments ↔ m ∈ h.moments ∨ m = ⟨h.now, e, out, r'⟩ := by
  simp [after]

theorem mem_after_of_mem (hm : m ∈ h.moments) : m ∈ (h.after e out r').moments :=
  mem_after.mpr (.inl hm)

theorem last_mem_after : ⟨h.now, e, out, r'⟩ ∈ (h.after e out r').moments :=
  mem_after.mpr (.inr rfl)

end

/-- **Induction over histories.** What holds at the beginning and is kept by every event that can
happen holds of every history. -/
theorem induct {P : History → Prop} {r : Runner} (start : P ⟨[], r⟩)
    (next : ∀ (h : History) (e : RunnerEvent) (r' : Runner) (out : List Effect), P h →
      h.now.step e = some (r', out) → P (h.after e out r'))
    (events : List RunnerEvent) : P (r.history events) := by
  -- on the last event, since an event is judged by what has happened before it
  induction events using List.reverseRecOn with
  | nil => exact start
  | append_singleton events e ih =>
    rw [Runner.history, List.foldl_append, ← Runner.history]
    simp only [List.foldl_cons, List.foldl_nil, History.next]
    split
    · next r' out h => exact next _ e r' out ih h
    · exact ih

theorem history_snoc (r : Runner) (events : List RunnerEvent) (e : RunnerEvent) :
    r.history (events ++ [e]) = (r.history events).next e := by
  rw [Runner.history, List.foldl_append]
  rfl

/-- **A history up to one of its moments** is a history, and so is the one that ends with it. -/
theorem split {r : Runner} {events : List RunnerEvent} {before after : List Moment} {m : Moment}
    (eq : (r.history events).moments = before ++ m :: after) :
    ∃ earlier, r.history earlier = ⟨before, m.before⟩ ∧
      r.history (earlier ++ [m.event]) = ⟨before ++ [m], m.after⟩ := by
  induction events using List.reverseRecOn generalizing after with
  | nil => simp [Runner.history] at eq
  | append_singleton events e ih =>
    have next := history_snoc r events e
    cases happens : (r.history events).now.step e with
    | none =>
      rw [next, History.next, happens] at eq
      exact ih eq
    | some step =>
      obtain ⟨r', out⟩ := step
      rw [History.next, happens] at next
      rw [next] at eq
      rcases List.eq_nil_or_concat after with rfl | ⟨rest, last, rfl⟩
      · obtain ⟨rfl, same⟩ := List.append_inj' eq rfl
        cases same
        exact ⟨events, rfl, next⟩
      · have longer : (r.history events).moments ++ [⟨(r.history events).now, e, out, r'⟩] =
            (before ++ m :: rest) ++ [last] := eq.trans (by simp)
        exact ih (List.append_inj' longer rfl).1

end History

end CheckAgent
