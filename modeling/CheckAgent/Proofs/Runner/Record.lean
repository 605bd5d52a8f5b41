import CheckAgent.Proofs.Runner.Registry

/-!
# What a history tells of a call

**The record of a call** is what its own steps have added to it (`History.record`): the checks that
it found in the list of aborted checks, the lists that the service gave it, how its lookup failed,
what it has sent and what was accepted, the runs that it began, and what it did to the registry and
to the list.

An event that is no step of a call adds nothing to its record (`record_eq_blank`), and a step adds
only what its stage calls for.
-/

namespace CheckAgent

open Runner CheckAgent.Text

/-! ## The record of a call -/

/-- The names that the service lists in an exchange. -/
def Exchange.names? : Exchange → Option (List String)
  | .answered status body => if status = 200 then AbortList.names? body else none
  | _ => none

/-- Whether a lookup has ended without an answer. -/
def Lookup.hasFailed : Lookup → Bool
  | .failed _ | .broken _ => true
  | _ => false

/-- The names that the service lists in its answer to call `n`. -/
def RunnerEvent.fetched? (n : Nat) : RunnerEvent → Option (List String)
  | .advance k (.exchange x _) => if k = n then x.names? else none
  | _ => none

/-- Whether a state that call `n` sent is accepted. -/
def RunnerEvent.accepted? (n : Nat) : RunnerEvent → Option Bool
  | .advance k (.accepted ok) => if k = n then some ok else none
  | _ => none

def Effect.call? : Effect → Option Nat
  | .sent n _ | .started n _ | .uploaded n _ _ _ => some n
  | .forwarded _ _ => none

/-- The state that call `n` sends. -/
def Effect.said? (n : Nat) : Effect → Option CheckState
  | .sent k state => if k = n then some state else none
  | _ => none

def Effect.begun? (n : Nat) : Effect → Option RunSpec
  | .started k run => if k = n then some run else none
  | _ => none

/-- What is known of what a call has done. -/
structure CallRecord where
  /-- The checks that it found in the list of aborted checks when it looked. -/
  listed : List String
  /-- The lists that the service gave it. -/
  fetched : List (List String)
  /-- How its lookup failed. -/
  failures : List Lookup
  /-- The states that it sent. -/
  said : List CheckState
  /-- Whether the states that it sent were accepted. -/
  accepted : List Bool
  /-- The runs that it began. -/
  begun : List RunSpec
  /-- How often it registered a check. -/
  registered : String → Nat
  /-- How often it changed the list of aborted checks. -/
  renewals : Nat

namespace CallRecord

def blank : CallRecord := ⟨[], [], [], [], [], [], fun _ => 0, 0⟩

instance : Append CallRecord where
  append a b :=
    { listed := a.listed ++ b.listed
      fetched := a.fetched ++ b.fetched
      failures := a.failures ++ b.failures
      said := a.said ++ b.said
      accepted := a.accepted ++ b.accepted
      begun := a.begun ++ b.begun
      registered := fun c => a.registered c + b.registered c
      renewals := a.renewals + b.renewals }

end CallRecord

namespace Moment

/-- The check that call `n` finds in the list of aborted checks. -/
def listed? (m : Moment) (n : Nat) : Option String :=
  match m.event, m.before.stage? n, m.before.abortList with
  | .advance k .onward, some (.lookingUp job .checking), some list =>
    if k = n ∧ job.checkId ∈ list.ids then some job.checkId else none
  | _, _, _ => none

/-- The way in which the lookup of call `n` fails. -/
def failure? (m : Moment) (n : Nat) : Option Lookup :=
  match m.event, m.before.stage? n, m.after.stage? n with
  | .advance k (.exchange _ _), some (.lookingUp _ (.requesting _)), some (.lookingUp _ l) =>
    if k = n ∧ l.hasFailed then some l else none
  | _, _, _ => none

/-- Call `n` changes the list of aborted checks. -/
def Renews (m : Moment) (n : Nat) : Prop :=
  m.event.call? = some n ∧ m.after.abortList ≠ m.before.abortList

instance (m : Moment) (n : Nat) : Decidable (m.Renews n) := by unfold Renews; infer_instance

/-- What a moment adds to the record of a call. -/
def record (m : Moment) (n : Nat) : CallRecord where
  listed := (m.listed? n).toList
  fetched := (m.event.fetched? n).toList
  failures := (m.failure? n).toList
  said := m.effects.filterMap (·.said? n)
  accepted := (m.event.accepted? n).toList
  begun := m.effects.filterMap (·.begun? n)
  registered := fun c => if m.Registers n c then 1 else 0
  renewals := if m.Renews n then 1 else 0

end Moment

namespace History

/-- What a history tells of a call. -/
def record (h : History) (n : Nat) : CallRecord :=
  h.moments.foldl (fun record m => record ++ m.record n) .blank

theorem record_after (h : History) (e : RunnerEvent) (out : List Effect) (r' : Runner) (n : Nat) :
    (h.after e out r').record n = h.record n ++ (Moment.mk h.now e out r').record n := by
  simp [record, after]

end History

namespace CallRecord

variable {record added : CallRecord}

/-! ### Adding to a record -/

@[simp] theorem listed_append (a b : CallRecord) : (a ++ b).listed = a.listed ++ b.listed := rfl
@[simp] theorem fetched_append (a b : CallRecord) : (a ++ b).fetched = a.fetched ++ b.fetched := rfl
@[simp] theorem failures_append (a b : CallRecord) :
    (a ++ b).failures = a.failures ++ b.failures := rfl
@[simp] theorem said_append (a b : CallRecord) : (a ++ b).said = a.said ++ b.said := rfl
@[simp] theorem accepted_append (a b : CallRecord) :
    (a ++ b).accepted = a.accepted ++ b.accepted := rfl
@[simp] theorem begun_append (a b : CallRecord) : (a ++ b).begun = a.begun ++ b.begun := rfl
@[simp] theorem registered_append (a b : CallRecord) (c : String) :
    (a ++ b).registered c = a.registered c + b.registered c := rfl
@[simp] theorem renewals_append (a b : CallRecord) :
    (a ++ b).renewals = a.renewals + b.renewals := rfl

theorem append_blank (record : CallRecord) : record ++ blank = record := by
  show CallRecord.mk _ _ _ _ _ _ _ _ = record
  simp [blank]

/-! ## Records of little -/

/-- Nothing has been sent, begun or registered. -/
structure Silent (record : CallRecord) : Prop where
  said : record.said = []
  accepted : record.accepted = []
  begun : record.begun = []
  registered : ∀ c, record.registered c = 0

/-- Nothing has become of the lookup. -/
structure Unasked (record : CallRecord) : Prop where
  listed : record.listed = []
  fetched : record.fetched = []
  failures : record.failures = []

/-- Nothing has become of the lookup but that it has failed in some ways, and nothing else has been
done. -/
structure Unanswered (record : CallRecord) (failures : List Lookup) : Prop extends
    record.Silent where
  listed : record.listed = []
  fetched : record.fetched = []
  failures : record.failures = failures
  renewals : record.renewals = 0

theorem Silent.append (h : record.Silent) (h' : added.Silent) : (record ++ added).Silent where
  said := by simp [h.said, h'.said]
  accepted := by simp [h.accepted, h'.accepted]
  begun := by simp [h.begun, h'.begun]
  registered c := by simp [h.registered, h'.registered]

theorem Unanswered.append {failures failures' : List Lookup} (h : record.Unanswered failures)
    (h' : added.Unanswered failures') : (record ++ added).Unanswered (failures ++ failures') where
  toSilent := h.toSilent.append h'.toSilent
  listed := by simp [h.listed, h'.listed]
  fetched := by simp [h.fetched, h'.fetched]
  failures := by simp [h.failures, h'.failures]
  renewals := by simp [h.renewals, h'.renewals]

end CallRecord

/-! ## What a step of a call adds -/

namespace Moment

variable {r : Runner} {n : Nat} {msg : Message} {s : Stage} {a : Answer} {t : Turned} {c : String}

/-- A step of call `n` as a moment. -/
def ofTurn (r : Runner) (n : Nat) (a : Answer) (t : Turned) : Moment :=
  ⟨r, .advance n a, t.effects, r.turned n t⟩

theorem stage?_ofTurn (stage : r.stage? n = some s) :
    (ofTurn r n a t).after.stage? n = some t.stage := by
  obtain ⟨call, hc, -⟩ := Option.map_eq_some_iff.mp stage
  simp [ofTurn, turned, stage?, Table.get?_modify, hc]

/-- A call registers its check when it has been admitted, and nothing else. -/
theorem registers_ofTurn (turn : Turn r n msg s a t) :
    (ofTurn r n a t).Registers n c ↔
      ∃ job, s = .admitted job ∧ t.stage = .announcing job ∧ job.checkId = c := by
  have owner : (ofTurn r n a t).after.owner? c = (t.registry.get? c).map (·.owner) := rfl
  unfold Registers
  rw [owner]
  rcases turn.registry_cases with ⟨reg, registered, -⟩ | ⟨job, rfl, now, free, reg⟩ |
    ⟨job, outcome, rfl, gone, -, reg⟩ <;> rw [reg]
  · constructor
    · rintro ⟨-, before, after⟩
      exact absurd before after
    · rintro ⟨job, rfl, now, -⟩
      rw [now] at registered
      cases registered
  · rw [owner?_set]
    constructor
    · rintro ⟨-, before, after⟩
      refine ⟨job, rfl, now, ?_⟩
      by_contra other
      rw [if_neg (Ne.symm other)] at after
      exact after before
    · rintro ⟨job', same, -, rfl⟩
      cases same
      exact ⟨rfl, free, by rw [if_pos rfl]; simp⟩
  · rw [owner?_erase]
    constructor
    · rintro ⟨-, before, after⟩
      split at after
      · exact absurd rfl after
      · exact absurd before after
    · rintro ⟨job', same, -⟩
      cases same

/-- A call changes the list of aborted checks when it stores one that it was given. -/
theorem renews_ofTurn (turn : Turn r n msg s a t) (renews : (ofTurn r n a t).Renews n) :
    ∃ job names, s = .lookingUp job (.storing names) := by
  have changed : t.abortList ≠ r.abortList := renews.2
  cases turn with
  | @look job list list' l l' a asked lookup =>
    cases lookup with
    | store => exact ⟨_, _, rfl⟩
    | check | answer | rest => exact absurd asked.symm changed
  | _ => exact absurd rfl changed

theorem renewals_ofTurn (turn : Turn r n msg s a t)
    (other : ∀ job names, s ≠ .lookingUp job (.storing names)) :
    ((ofTurn r n a t).record n).renewals = 0 := by
  refine if_neg fun renews => ?_
  obtain ⟨job, names, same⟩ := renews_ofTurn turn renews
  exact other job names same

/-- A call adds to what has become of its lookup when it looks into the list, or gets an answer. -/
theorem unasked_ofTurn (stage : r.stage? n = some s) (looked : ∀ job, s ≠ .lookingUp job .checking)
    (unanswered : ∀ x chance, a ≠ .exchange x chance) : ((ofTurn r n a t).record n).Unasked where
  listed := by
    have none : (ofTurn r n a t).listed? n = none := by
      unfold listed? ofTurn
      dsimp only
      rw [stage]
      split
      · next h _ => exact absurd (Option.some.inj h) (looked _)
      · rfl
    exact congrArg Option.toList none
  fetched := by
    cases a with
    | exchange x chance => exact absurd rfl (unanswered x chance)
    | _ => rfl
  failures := by
    cases a with
    | exchange x chance => exact absurd rfl (unanswered x chance)
    | _ => rfl

theorem registered_ofTurn (turn : Turn r n msg s a t)
    (unannounced : ∀ job, t.stage ≠ .announcing job) (c : String) :
    ((ofTurn r n a t).record n).registered c = 0 := by
  refine if_neg fun registers => ?_
  obtain ⟨job, -, now, -⟩ := (registers_ofTurn turn).mp registers
  exact unannounced job now

theorem silent_ofTurn (turn : Turn r n msg s a t) (quiet : t.effects = [])
    (waits : ∀ ok, a ≠ .accepted ok) (unannounced : ∀ job, t.stage ≠ .announcing job) :
    ((ofTurn r n a t).record n).Silent where
  said := by simp [record, ofTurn, quiet]
  accepted := by
    cases a with
    | accepted ok => exact absurd rfl (waits ok)
    | _ => rfl
  begun := by simp [record, ofTurn, quiet]
  registered := registered_ofTurn turn unannounced

theorem unanswered_ofTurn (turn : Turn r n msg s a t)
    (quiet : t.effects = []) (alone : a = .onward ∨ a = .rested)
    (unannounced : ∀ job, t.stage ≠ .announcing job) (looked : (ofTurn r n a t).listed? n = none)
    (kept : ∀ job names, s ≠ .lookingUp job (.storing names)) :
    ((ofTurn r n a t).record n).Unanswered [] where
  toSilent := silent_ofTurn turn quiet (by rcases alone with rfl | rfl <;> simp) unannounced
  listed := congrArg Option.toList looked
  fetched := by rcases alone with rfl | rfl <;> rfl
  failures := by rcases alone with rfl | rfl <;> rfl
  renewals := renewals_ofTurn turn kept

theorem fetched_ofTurn (x : Exchange) (chance : Chance) :
    ((ofTurn r n (.exchange x chance) t).record n).fetched = x.names?.toList :=
  congrArg Option.toList (if_pos rfl)

theorem failures_ofTurn {job job' : Job} {i : Nat} {l : Lookup} (x : Exchange) (chance : Chance)
    (stage : r.stage? n = some (.lookingUp job (.requesting i)))
    (now : t.stage = .lookingUp job' l) :
    ((ofTurn r n (.exchange x chance) t).record n).failures = if l.hasFailed then [l] else [] := by
  have after := stage?_ofTurn (a := .exchange x chance) (t := t) stage
  rw [now] at after
  have failure : (ofTurn r n (.exchange x chance) t).failure? n =
      if l.hasFailed then some l else none := by
    unfold failure?
    rw [after]
    simp [ofTurn, stage]
  show Option.toList _ = _
  rw [failure]
  split <;> rfl

end Moment

namespace Runner

variable {r : Runner} {n : Nat} {msg : Message} {s : Stage} {a : Answer} {t : Turned}

theorem Turn.isSome_abortList (turn : Turn r n msg s a t) (asked : r.abortList.isSome = true) :
    t.abortList.isSome = true := by
  cases turn with
  | look => rfl
  | _ => exact asked

theorem Turn.call?_of_mem (turn : Turn r n msg s a t) {effect : Effect} (mem : effect ∈ t.effects) :
    effect.call? = some n := by
  cases turn <;> simp [quiet, saying] at mem <;> subst mem <;> rfl

/-! ## What other events add -/

theorem call?_of_step {r r' : Runner} {e : RunnerEvent} {out : List Effect}
    (step : r.step e = some (r', out)) {effect : Effect} (mem : effect ∈ out) {k : Nat}
    (call : effect.call? = some k) : ∃ a, e = .advance k a := by
  cases happens_of_step step with
  | @turn n a _ _ _ turn =>
    have mine := turn.call?_of_mem mem
    rw [call] at mine
    cases mine
    exact ⟨a, rfl⟩
  | forward =>
    cases List.mem_singleton.mp mem
    cases call
  | deliver | abort | lapse | stopAll | take | refuse | answer => cases mem

theorem abortList_of_step {r r' : Runner} {e : RunnerEvent} {out : List Effect}
    (step : r.step e = some (r', out)) (other : ∀ n a, e ≠ .advance n a) :
    r'.abortList = r.abortList := by
  cases happens_of_step step with
  | turn => exact absurd rfl (other _ _)
  | deliver | abort | lapse | stopAll | take | refuse | forward | answer => rfl

/-- An event that is no step of a call adds nothing to its record. -/
theorem record_eq_blank {r r' : Runner} {e : RunnerEvent} {out : List Effect}
    (step : r.step e = some (r', out)) (other : ∀ a, e ≠ .advance n a) :
    (Moment.mk r e out r').record n = .blank := by
  have strange (effect : Effect) (mem : effect ∈ out) : effect.call? ≠ some n := by
    intro call
    obtain ⟨a, same⟩ := call?_of_step step mem call
    exact other a same
  have delivered (call : e.call? = some n) : ∃ m, e = .deliver n m := by
    cases e with
    | deliver k m =>
      cases call
      exact ⟨m, rfl⟩
    | advance k a =>
      cases call
      exact absurd rfl (other a)
    | _ => cases call
  have looked : (Moment.mk r e out r').listed? n = none := by
    unfold Moment.listed?
    split
    · next k job list event _ _ =>
      refine if_neg fun h => other .onward ?_
      rw [← h.1]
      exact event
    · rfl
  have fetched : e.fetched? n = none := by
    unfold RunnerEvent.fetched?
    split
    · exact if_neg fun same => other _ (by rw [same])
    · rfl
  have failure : (Moment.mk r e out r').failure? n = none := by
    unfold Moment.failure?
    split
    · next k x chance job i job' l event _ _ =>
      refine if_neg fun h => other (.exchange x chance) ?_
      rw [← h.1]
      exact event
    · rfl
  have accepted : e.accepted? n = none := by
    unfold RunnerEvent.accepted?
    split
    · exact if_neg fun same => other _ (by rw [same])
    · rfl
  have said : out.filterMap (·.said? n) = [] := by
    refine List.filterMap_eq_nil_iff.mpr fun effect mem => ?_
    cases effect with
    | sent k state => exact if_neg fun same => strange _ mem (by rw [same]; rfl)
    | _ => rfl
  have begun : out.filterMap (·.begun? n) = [] := by
    refine List.filterMap_eq_nil_iff.mpr fun effect mem => ?_
    cases effect with
    | started k run => exact if_neg fun same => strange _ mem (by rw [same]; rfl)
    | _ => rfl
  have registers (c : String) : ¬ (Moment.mk r e out r').Registers n c := by
    rintro ⟨call, before, after⟩
    obtain ⟨m, rfl⟩ := delivered call
    cases step_of_eq step with
    | deliver _ _ _ owners => exact after ((owners c).trans before)
    | beside _ noMessage => exact noMessage n m rfl
  have renews : ¬ (Moment.mk r e out r').Renews n := by
    rintro ⟨call, changed⟩
    obtain ⟨m, rfl⟩ := delivered call
    exact changed (abortList_of_step step (by simp))
  unfold Moment.record
  simp only [looked, fetched, failure, accepted, said, begun, if_neg (registers _), if_neg renews]
  rfl

end Runner

namespace History

theorem record_registered (h : History) (n : Nat) (c : String) :
    (h.record n).registered c = h.registrations n c := by
  obtain ⟨moments, now⟩ := h
  unfold record registrations
  dsimp only
  induction moments using List.reverseRecOn with
  | nil => rfl
  | append_singleton moments m ih =>
    rw [List.foldl_append, List.countP_append, List.foldl_cons, List.foldl_nil,
      CallRecord.registered_append, ih, List.countP_singleton]
    simp [Moment.record]

end History

end CheckAgent
