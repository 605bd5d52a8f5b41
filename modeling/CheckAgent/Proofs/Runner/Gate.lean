import CheckAgent.Proofs.Runner.Record

/-!
# The gate before a run

Before a call runs its check it looks it up in the list of aborted checks. **Main result**
(`abort_gate`). A call begins a run only after the service has given this call a list without the
check, and after the check, which was not registered, has been registered. A call that finds its
check in the list, or in the one that the service gives it, begins no run and sends `ABORTED` and
nothing else, and its message is deleted exactly if that is accepted. A call whose lookup fails
sends nothing, registers nothing, leaves the list as it is, and keeps its message.

`Behind` says for each stage what the record of a call looks like that has come there, and every
step of the call keeps it (`Turn.behind`). What the list holds does not enter: it decides whether a
call finds its check aborted without asking, and never that a check may be run.
-/

namespace CheckAgent

open Runner CheckAgent.Text

/-- The check was found in the list of aborted checks, or in one that the service gave. -/
def CallRecord.Finds (record : CallRecord) (c : String) : Prop :=
  c ∈ record.listed ∨ ∃ names ∈ record.fetched, c ∈ names

/-- How far a call is that has found its check aborted: its stage, what it has sent, and what was
answered. -/
inductive Refusal (c : String) : Stage → List CheckState → List Bool → Prop where
  | storing {job : Job} {names : List String} (listed : c ∈ names) (mine : job.checkId = c) :
      Refusal c (.lookingUp job (.storing names)) [] []
  | found {job : Job} (mine : job.checkId = c) : Refusal c (.lookingUp job (.found true)) [] []
  | sent : Refusal c (.concluding (.plain c .aborted)) [.plain c .aborted] []
  | answered (ok : Bool) :
      Refusal c (.done (if ok then .delete else .keep)) [.plain c .aborted] [ok]

/-- How far a call is whose lookup has failed in a way. One whose next delay is no span ends without
a disposition. -/
inductive Postponement : Lookup → Stage → Prop where
  | failed (job : Job) (e : AbortListError) : Postponement (.failed e) (.lookingUp job (.failed e))
  | kept (e : AbortListError) : Postponement (.failed e) (.done .keep)
  | broken (job : Job) (why : SpanFault) :
      Postponement (.broken why) (.lookingUp job (.broken why))
  | collapsed (why : SpanFault) : Postponement (.broken why) .broken

namespace History

/-- A call for a check has found the check in the list of aborted checks, or in the one that the
service gave it. -/
def FindsAborted (h : History) (n : Nat) (c : String) : Prop :=
  h.now.checkId? n = some c ∧ (h.record n).Finds c

/-- What is true of all calls that look for aborted checks. -/
structure Gated (h : History) : Prop where
  /-- A call that has begun a run was given a list without the check by the service, and has
  registered the check. So it was when the run began, since the history that ends there is one. -/
  begins : ∀ n run, run ∈ (h.record n).begun →
    (∃ names, (h.record n).fetched = [names] ∧ run.checkId ∉ names) ∧
      h.registrations n run.checkId = 1
  /-- A call that finds its check aborted begins no run and registers nothing. It sends one state
  at most, and once that is answered its message is deleted exactly if the state was accepted. -/
  refuses : ∀ n c, h.FindsAborted n c → (h.record n).begun = [] ∧
    (∀ c', h.registrations n c' = 0) ∧
      ∃ s, h.now.stage? n = some s ∧ Refusal c s (h.record n).said (h.record n).accepted
  /-- Until it has sent its state it goes on by itself. -/
  sends : ∀ n c, h.FindsAborted n c → (h.record n).said = [] → ∃ r out,
    h.now.step (.advance n .onward) = some (r, out) ∧
      (out = [.sent n (.plain c .aborted)] ∨ ∃ job names,
        h.now.stage? n = some (.lookingUp job (.storing names)) ∧
          r.stage? n = some (.lookingUp job (.found true)))
  /-- A call whose lookup fails does nothing, and its message is not deleted. -/
  postpones : ∀ n l, l ∈ (h.record n).failures → (h.record n).said = [] ∧
    (h.record n).begun = [] ∧ (∀ c, h.registrations n c = 0) ∧ (h.record n).renewals = 0 ∧
      ∃ s, h.now.stage? n = some s ∧ Postponement l s
  /-- It goes on by itself to keep its message. -/
  keeps : ∀ n job e, h.now.stage? n = some (.lookingUp job (.failed e)) → ∃ r,
    h.now.step (.advance n .onward) = some (r, []) ∧ r.stage? n = some (.done .keep)

end History

/-! ## What the stages of a call say of its record -/

namespace CallRecord

variable {record added : CallRecord} {check : Option String} {c : String}

/-- The service gave a list without the check. -/
structure Clears (record : CallRecord) (c : String) : Prop where
  failures : record.failures = []
  listed : record.listed = []
  names : ∃ names, record.fetched = [names] ∧ c ∉ names

/-- The service gave a list without the check, and the check was registered and may have been
run. -/
structure Ran (record : CallRecord) (c : String) : Prop extends record.Clears c where
  begun : ∀ run ∈ record.begun, run.checkId = c
  registered : 0 < record.registered c

/-- No run was begun, and what was sent and accepted is this. -/
structure Refused (record : CallRecord) (said : List CheckState) (accepted : List Bool) : Prop where
  failures : record.failures = []
  said : record.said = said
  accepted : record.accepted = accepted
  begun : record.begun = []
  registered : ∀ c, record.registered c = 0

/-- The record of a call for a check that has come to a stage. -/
def Behind (check : Option String) (record : CallRecord) : Option Stage → Prop
  | none | some .received => record.Unanswered []
  | some (.lookingUp job l) =>
    match l with
    | .checking | .requesting _ | .resting _ _ => record.Unanswered []
    | .storing names =>
      record.Silent ∧ record.failures = [] ∧ record.listed = [] ∧ record.fetched = [names]
    | .found true => record.Refused [] []
    | .found false => record.Silent ∧ record.Clears job.checkId
    | .failed e => record.Unanswered [.failed e]
    | .broken why => record.Unanswered [.broken why]
  | some (.admitted job) => record.Silent ∧ record.Clears job.checkId
  | some (.announcing job) | some (.running job) | some (.ended job _) | some (.uploading job _) =>
    record.Ran job.checkId
  | some (.concluding state) => record.Ran state.checkId ∨
    ∃ c, state = .plain c .aborted ∧ record.Refused [.plain c .aborted] []
  | some (.done disposition) =>
    record.Unanswered [] ∨
    disposition = .keep ∧ (∃ e, record.Unanswered [.failed e]) ∨
    (∃ c ok, check = some c ∧ disposition = (if ok then .delete else .keep) ∧
      record.Refused [.plain c .aborted] [ok]) ∨
    (∃ c, check = some c ∧ record.Silent ∧ record.Clears c) ∨
    ∃ c, check = some c ∧ record.Ran c
  | some .broken => ∃ why, record.Unanswered [.broken why]

theorem Clears.append (h : record.Clears c) (h' : added.Unasked) : (record ++ added).Clears c where
  failures := by simp [h.failures, h'.failures]
  listed := by simp [h.listed, h'.listed]
  names := by simpa [h'.fetched] using h.names

theorem Ran.append (h : record.Ran c) (h' : added.Unasked)
    (begun : ∀ run ∈ added.begun, run.checkId = c) : (record ++ added).Ran c where
  toClears := h.toClears.append h'
  begun run mem := by
    rcases List.mem_append.mp mem with mem | mem
    · exact h.begun run mem
    · exact begun run mem
  registered := Nat.lt_of_lt_of_le h.registered (Nat.le_add_right _ _)

theorem Refused.append {said : List CheckState} {accepted : List Bool}
    (h : record.Refused said accepted) (h' : added.Unasked) (begun : added.begun = [])
    (registered : ∀ c, added.registered c = 0) :
    (record ++ added).Refused (said ++ added.said) (accepted ++ added.accepted) where
  failures := by simp [h.failures, h'.failures]
  said := by simp [h.said]
  accepted := by simp [h.accepted]
  begun := by simp [h.begun, begun]
  registered c := by simp [h.registered, registered]

/-- What has become of a call: nothing or a failure of its lookup, or its check may be run, or it
refuses to run it. -/
inductive Standing (check : Option String) (record : CallRecord) (s : Option Stage) : Prop where
  | unanswered {failures : List Lookup} (unanswered : record.Unanswered failures)
      (postponed : ∀ l ∈ failures, ∃ stage, s = some stage ∧ Postponement l stage)
  | cleared {c : String} (mine : check = some c) (clears : record.Clears c)
      (ran : record.begun = [] ∨ record.Ran c)
  | refused {c : String} {said : List CheckState} {accepted : List Bool} {stage : Stage}
      (mine : check = some c) (refused : record.Refused said accepted) (at_ : s = some stage)
      (refusal : Refusal c stage said accepted)

/-- What has become of a call, by its stage. -/
theorem Behind.standing {s : Option Stage} (behind : Behind check record s)
    (own : ∀ stage c, s = some stage → stage.checkId? = some c → check = some c) :
    Standing check record s := by
  have quiet (h : record.Unanswered []) : Standing check record s :=
    .unanswered h fun l mem => by cases mem
  have failing {l : Lookup} {stage : Stage} (h : record.Unanswered [l]) (now : s = some stage)
      (postponed : Postponement l stage) : Standing check record s :=
    .unanswered h fun l' mem => ⟨stage, now, by rwa [List.mem_singleton.mp mem]⟩
  cases s with
  | none => exact quiet behind
  | some stage =>
    cases stage with
    | received => exact quiet behind
    | lookingUp job l =>
      have mine := own _ job.checkId rfl rfl
      cases l with
      | checking | requesting | resting => exact quiet behind
      | storing names =>
        obtain ⟨silent, failures, listed, fetched⟩ := behind
        by_cases found : job.checkId ∈ names
        · have refused : record.Refused [] [] :=
            ⟨failures, silent.said, silent.accepted, silent.begun, silent.registered⟩
          exact .refused mine refused rfl (.storing found rfl)
        · exact .cleared mine ⟨failures, listed, names, fetched, found⟩ (.inl silent.begun)
      | found aborted =>
        cases aborted with
        | true => exact .refused mine behind rfl (.found rfl)
        | false => exact .cleared mine behind.2 (.inl behind.1.begun)
      | failed e => exact failing behind rfl (.failed job e)
      | broken why => exact failing behind rfl (.broken job why)
    | admitted job => exact .cleared (own _ _ rfl rfl) behind.2 (.inl behind.1.begun)
    | announcing job | running job | ended job outcome | uploading job status =>
      exact .cleared (own _ _ rfl rfl) (Ran.toClears behind) (.inr behind)
    | concluding state =>
      have mine := own _ state.checkId rfl rfl
      rcases behind with ran | ⟨c, rfl, refused⟩
      · exact .cleared mine ran.toClears (.inr ran)
      · exact .refused mine refused rfl .sent
    | done disposition =>
      rcases behind with nothing | ⟨rfl, e, failed⟩ | ⟨c, ok, mine, rfl, refused⟩ |
        ⟨c, mine, silent, clears⟩ | ⟨c, mine, ran⟩
      · exact quiet nothing
      · exact failing failed rfl (.kept e)
      · exact .refused mine refused rfl (.answered ok)
      · exact .cleared mine clears (.inl silent.begun)
      · exact .cleared mine ran.toClears (.inr ran)
    | broken =>
      obtain ⟨why, failed⟩ := behind
      exact failing failed rfl (.collapsed why)

theorem Unanswered.not_finds {failures : List Lookup} (h : record.Unanswered failures) :
    ¬ record.Finds c := by
  rintro (mem | ⟨names, mem, -⟩)
  · rw [h.listed] at mem
    cases mem
  · rw [h.fetched] at mem
    cases mem

theorem Clears.not_finds (h : record.Clears c) : ¬ record.Finds c := by
  obtain ⟨free, fetched, absent⟩ := h.names
  rintro (mem | ⟨names, mem, found⟩)
  · rw [h.listed] at mem
    cases mem
  · rw [fetched] at mem
    rw [List.mem_singleton.mp mem] at found
    exact absent found

end CallRecord

/-- What comes of an answer of the service: its list is stored, or the call tries again or gives
up. -/
theorem AbortList.answer_cases (list : AbortList) (i : Nat) (x : Exchange) (chance : Chance) :
    (∃ names, x.names? = some names ∧ list.answer i x chance = .storing names) ∨
      x.names? = none ∧ ((∃ j d, list.answer i x chance = .resting j d) ∨
        (list.answer i x chance).hasFailed = true) := by
  have failing (e : AbortListError) (h : read x = .error e) :
      (∃ j d, list.answer i x chance = .resting j d) ∨
        (list.answer i x chance).hasFailed = true := by
    unfold answer
    rw [h]
    dsimp only
    cases list.retryer.verdict i e.kind chance with
    | giveUp => exact .inr rfl
    | retryAfter d => exact .inl ⟨_, _, rfl⟩
    | fault why => exact .inr rfl
  cases x with
  | unreachable reason => exact .inr ⟨rfl, failing _ rfl⟩
  | lost reason => exact .inr ⟨rfl, failing _ rfl⟩
  | answered status body =>
    by_cases ok : status = 200
    · cases names : names? body with
      | some names' =>
        refine .inl ⟨names', ?_, ?_⟩
        · simp [Exchange.names?, ok, names]
        · simp [answer, read, ok, names]
      | none =>
        refine .inr ⟨by simp [Exchange.names?, ok, names], failing (.undecodable undecodable) ?_⟩
        simp [read, ok, names]
    · exact .inr ⟨if_neg ok, failing (.unexpectedStatus status) (if_neg ok)⟩

namespace Runner

open CallRecord Moment

variable {r : Runner} {n : Nat} {msg : Message} {s : Stage} {a : Answer} {t : Turned}
  {check : Option String} {record : CallRecord}

/-- A step after which a call goes on with its lookup. -/
def looking (r : Runner) (job : Job) (l : Lookup) (list : AbortList) : Turned :=
  ⟨.lookingUp job l, r.registry, list, []⟩

theorem looking_ne_announcing {job : Job} {l : Lookup} {list : AbortList} (job' : Job) :
    (r.looking job l list).stage ≠ .announcing job' := by
  simp [looking]

variable {job : Job} {list list' : AbortList} {l l' : Lookup}

theorem behind_check (stage : r.stage? n = some (.lookingUp job .checking))
    (asked : r.abortList = some list)
    (turn : Turn r n msg (.lookingUp job .checking) .onward
      (r.looking job (list.check job.checkId) list))
    (behind : record.Unanswered []) :
    Behind check
      (record ++ (ofTurn r n .onward (r.looking job (list.check job.checkId) list)).record n)
      (some (.lookingUp job (list.check job.checkId))) := by
  by_cases listed : job.checkId ∈ list.ids
  · have found : list.check job.checkId = .found true := if_pos listed
    rw [found] at turn ⊢
    have silent := silent_ofTurn turn rfl (by simp) looking_ne_announcing
    have both := behind.toSilent.append silent
    refine ⟨?_, both.said, both.accepted, both.begun, both.registered⟩
    rw [failures_append, behind.failures]
    rfl
  · have asks : list.check job.checkId = .requesting 0 := if_neg listed
    rw [asks] at turn ⊢
    have added := unanswered_ofTurn turn rfl (.inl rfl) looking_ne_announcing
      (by simp [listed?, ofTurn, stage, asked, listed]) (by simp)
    exact behind.append added

theorem behind_answer {i : Nat} {x : Exchange} {chance : Chance}
    (stage : r.stage? n = some (.lookingUp job (.requesting i)))
    (turn : Turn r n msg (.lookingUp job (.requesting i)) (.exchange x chance)
      (r.looking job (list.answer i x chance) list))
    (behind : record.Unanswered []) :
    Behind check (record ++
        (ofTurn r n (.exchange x chance) (r.looking job (list.answer i x chance) list)).record n)
      (some (.lookingUp job (list.answer i x chance))) := by
  have silent := silent_ofTurn turn rfl (by simp) looking_ne_announcing
  have fetched := fetched_ofTurn (r := r) (n := n)
    (t := r.looking job (list.answer i x chance) list) x chance
  have failures := failures_ofTurn (t := r.looking job (list.answer i x chance) list) x chance
    stage rfl
  have kept := renewals_ofTurn turn (by simp)
  rcases list.answer_cases i x chance with ⟨names, given, storing⟩ | ⟨none, rests⟩
  · rw [given] at fetched
    rw [storing] at silent fetched failures ⊢
    refine ⟨behind.toSilent.append silent, ?_, ?_, ?_⟩
    · rw [failures_append, behind.failures]
      exact failures
    · rw [listed_append, behind.listed]
      rfl
    · rw [fetched_append, behind.fetched]
      exact fetched
  · rw [none] at fetched
    have both := behind.append ⟨silent, rfl, fetched, failures, kept⟩
    rcases rests with ⟨j, d, resting⟩ | failed
    · rw [resting] at both ⊢
      exact both
    · rw [if_pos failed] at both
      cases answered : list.answer i x chance with
      | failed e | broken why =>
        rw [answered] at both
        exact both
      | _ =>
        rw [answered] at failed
        cases failed

theorem behind_store {names : List String}
    (stage : r.stage? n = some (.lookingUp job (.storing names)))
    (turn : Turn r n msg (.lookingUp job (.storing names)) .onward
      (r.looking job (list.store job.checkId names).2 (list.store job.checkId names).1))
    (behind : Behind check record (some (.lookingUp job (.storing names)))) :
    Behind check (record ++ (ofTurn r n .onward
        (r.looking job (list.store job.checkId names).2 (list.store job.checkId names).1)).record n)
      (some (.lookingUp job (list.store job.checkId names).2)) := by
  obtain ⟨before, failures, listed, fetched⟩ := behind
  have silent := silent_ofTurn turn rfl (by simp) looking_ne_announcing
  have unasked := unasked_ofTurn (a := .onward)
    (t := r.looking job (list.store job.checkId names).2 (list.store job.checkId names).1) stage
    (by simp) (by simp)
  have both := before.append silent
  by_cases found : job.checkId ∈ names
  · have aborted : (list.store job.checkId names).2 = .found true := by
      simp [AbortList.store, found]
    rw [aborted] at both unasked ⊢
    refine ⟨?_, both.said, both.accepted, both.begun, both.registered⟩
    rw [failures_append, failures, unasked.failures]
    rfl
  · have free : (list.store job.checkId names).2 = .found false := by
      simp [AbortList.store, found]
    rw [free] at both unasked ⊢
    have clears : record.Clears job.checkId := ⟨failures, listed, names, fetched, found⟩
    exact ⟨both, clears.append unasked⟩

/-- Every step of a lookup keeps what its stages say of the record of the call. -/
theorem LookupTurn.behind (msg : Message) (stage : r.stage? n = some (.lookingUp job l))
    (asked : r.abortList = some list) (turn : LookupTurn list job.checkId l a l' list')
    (behind : Behind check record (some (.lookingUp job l))) :
    Behind check (record ++ (ofTurn r n a (r.looking job l' list')).record n)
      (some (.lookingUp job l')) := by
  have steps : Turn r n msg (.lookingUp job l) a (r.looking job l' list') := .look asked turn
  cases turn with
  | check => exact behind_check stage asked steps behind
  | answer => exact behind_answer stage steps behind
  | rest =>
    have added := unanswered_ofTurn steps rfl (.inr rfl) looking_ne_announcing rfl (by simp)
    exact Unanswered.append behind added
  | store => exact behind_store stage steps behind

/-- Every step of a call keeps what its stages say of its record. -/
theorem Turn.behind (stage : r.stage? n = some s) (turn : Turn r n msg s a t)
    (asked : r.abortList.isSome = true) (mine : ∀ c, s.checkId? = some c → check = some c)
    (behind : Behind check record (some s)) :
    Behind check (record ++ (ofTurn r n a t).record n) (some t.stage) := by
  have steps := turn
  have unasked (looked : ∀ job, s ≠ .lookingUp job .checking)
      (other : ∀ x chance, a ≠ .exchange x chance) : ((ofTurn r n a t).record n).Unasked :=
    unasked_ofTurn stage looked other
  cases turn with
  | discard unreadable =>
    have added := unanswered_ofTurn steps rfl (.inl rfl) (by simp [quiet])
      (by simp [listed?, ofTurn, stage]) (by simp)
    exact .inl (Unanswered.append behind added)
  | consult holds asked =>
    have added := unanswered_ofTurn steps rfl (.inl rfl) (by simp [quiet])
      (by simp [listed?, ofTurn, stage]) (by simp)
    exact Unanswered.append behind added
  | pass holds none =>
    rw [none] at asked
    cases asked
  | look asked turn => exact turn.behind msg stage asked behind
  | clear =>
    have silent := silent_ofTurn steps rfl (by simp) (by simp [quiet])
    exact ⟨behind.1.append silent, behind.2.append (unasked (by simp) (by simp))⟩
  | @refuse job =>
    have refused := Refused.append behind (unasked (by simp) (by simp))
      (by simp [Moment.record, ofTurn, saying, Effect.begun?])
      (registered_ofTurn steps (by simp [saying]))
    refine .inr ⟨job.checkId, rfl, ?_⟩
    simpa [Moment.record, ofTurn, saying, Effect.said?, RunnerEvent.accepted?] using refused
  | postpone =>
    have added := unanswered_ofTurn steps rfl (.inl rfl) (by simp [quiet])
      (by simp [listed?, ofTurn, stage]) (by simp)
    exact .inr (.inl ⟨rfl, _, Unanswered.append behind added⟩)
  | collapse =>
    have added := unanswered_ofTurn steps rfl (.inl rfl) (by simp [quiet])
      (by simp [listed?, ofTurn, stage]) (by simp)
    exact ⟨_, Unanswered.append behind added⟩
  | @drop job taken =>
    have silent := silent_ofTurn steps rfl (by simp) (by simp [quiet])
    exact .inr (.inr (.inr (.inl ⟨job.checkId, mine _ rfl, behind.1.append silent,
      behind.2.append (unasked (by simp) (by simp))⟩)))
  | @register job free =>
    have clears := behind.2.append (unasked (by simp) (by simp))
    have registers := (registers_ofTurn (c := job.checkId) steps).mpr ⟨job, rfl, rfl, rfl⟩
    refine ⟨clears, fun run mem => ?_, ?_⟩
    · rw [begun_append, behind.1.begun] at mem
      simp [Moment.record, ofTurn, Effect.begun?] at mem
    · rw [registered_append]
      have : ((ofTurn r n .onward _).record n).registered job.checkId = 1 := if_pos registers
      omega
  | @begin job ok =>
    refine Ran.append behind (unasked (by simp) (by simp)) fun run mem => ?_
    have : run = .ofJob job r.timeLimit := by
      simpa [Moment.record, ofTurn, Effect.begun?] using mem
    rw [this]
    rfl
  | finish =>
    exact Ran.append behind (unasked (by simp) (by simp))
      (by simp [Moment.record, ofTurn, quiet])
  | fail | close =>
    exact .inl (Ran.append behind (unasked (by simp) (by simp))
      (by simp [Moment.record, ofTurn, Effect.begun?]))
  | upload some =>
    exact Ran.append behind (unasked (by simp) (by simp))
      (by simp [Moment.record, ofTurn, Effect.begun?])
  | link =>
    exact .inl (Ran.append behind (unasked (by simp) (by simp))
      (by simp [Moment.record, ofTurn, saying, Effect.begun?]))
  | @settle state ok =>
    have mine := mine state.checkId rfl
    rcases behind with ran | ⟨c, rfl, refused⟩
    · exact .inr (.inr (.inr (.inr ⟨state.checkId, mine, ran.append (unasked (by simp) (by simp))
        (by simp [Moment.record, ofTurn, quiet])⟩)))
    · have answered := refused.append (unasked (by simp) (by simp))
        (by simp [Moment.record, ofTurn, quiet]) (registered_ofTurn steps (by simp [quiet]))
      refine .inr (.inr (.inl ⟨c, ok, mine, rfl, ?_⟩))
      simpa [Moment.record, ofTurn, quiet, RunnerEvent.accepted?] using answered

end Runner

namespace History

open CallRecord

variable {h : History}

/-- What the stages of all calls say of their records. -/
def Recorded (h : History) : Prop :=
  h.now.abortList.isSome = true ∧ ∀ n, Behind (h.now.checkId? n) (h.record n) (h.now.stage? n)

theorem recorded_advance {k : Nat} {a : Answer} {r' : Runner} {out : List Effect}
    (hr : h.now.Consistent) (recorded : h.Recorded)
    (step : h.now.step (.advance k a) = some (r', out)) :
    (h.after (.advance k a) out r').Recorded := by
  obtain ⟨asked, behind⟩ := recorded
  obtain ⟨call, t, hc, turn, rfl, rfl⟩ := turn_of_advance step
  have stage : h.now.stage? k = some call.stage := by simp [stage?, hc]
  have messages (n : Nat) : (h.now.turned k t).message? n = h.now.message? n := by
    simp only [turned, message?, Table.get?_modify]
    split
    · next same => simp [same, hc]
    · rfl
  have checks (n : Nat) : (h.now.turned k t).checkId? n = h.now.checkId? n := by
    unfold checkId?
    rw [messages]
  refine ⟨turn.isSome_abortList asked, fun n => ?_⟩
  rw [record_after, now_after, checks]
  by_cases same : n = k
  · subst same
    have stage' := Moment.stage?_ofTurn (a := a) (t := t) stage
    have before := behind n
    rw [stage] at before
    have after := turn.behind stage asked (fun c about => hr.check stage about) before
    rw [show (h.now.turned n t).stage? n = some t.stage from stage']
    exact after
  · have stage' : (h.now.turned k t).stage? n = h.now.stage? n := by
      simp [turned, stage?, Table.get?_modify, same]
    have blank := record_eq_blank (n := n) step fun a' other => by
      cases other
      exact same rfl
    rw [blank, append_blank, stage']
    exact behind n

theorem recorded_beside {e : RunnerEvent} {r' : Runner} {out : List Effect} (recorded : h.Recorded)
    (step : h.now.step e = some (r', out)) (other : ∀ n a, e ≠ .advance n a) :
    (h.after e out r').Recorded := by
  obtain ⟨asked, behind⟩ := recorded
  refine ⟨?_, fun n => ?_⟩
  · rw [now_after, abortList_of_step step other]
    exact asked
  · rw [record_after, now_after, record_eq_blank step (other n), append_blank]
    cases step_of_eq step with
    | @deliver k m fresh stages messages _ =>
      have before := behind n
      rw [stages n]
      split
      · next same =>
        rw [same, fresh] at before
        rw [same]
        exact before
      · next distinct =>
        unfold checkId?
        rw [messages, if_neg distinct]
        exact before
    | turn => exact absurd rfl (other _ _)
    | beside _ _ stages messages _ _ =>
      unfold checkId?
      rw [stages, messages]
      exact behind n

variable (timeLimit : Span) (list : AbortList) (events : List RunnerEvent)

/-- **The records of all calls**, after every history. -/
theorem recorded : ((Runner.start timeLimit (some list)).history events).Recorded := by
  refine induct_consistent timeLimit (some list) events ?_ fun h e r' out hr recorded step => ?_
  · exact ⟨rfl, fun n => ⟨⟨rfl, rfl, rfl, fun _ => rfl⟩, rfl, rfl, rfl, rfl⟩⟩
  · by_cases call : ∃ k a, e = .advance k a
    · obtain ⟨k, a, rfl⟩ := call
      exact recorded_advance hr recorded step
    · exact recorded_beside recorded step fun k a same => call ⟨k, a, same⟩

end History

/-! ## The gate -/

namespace Runner

variable {r : Runner} {n : Nat} {job : Job} {list : AbortList} {l : Lookup}

theorem step_lookingUp (asked : r.abortList = some list)
    (stage : r.stage? n = some (.lookingUp job l)) (a : Answer) :
    r.step (.advance n a) = r.advanceLookup n job list l a := by
  obtain ⟨call, hc, hs⟩ := Option.map_eq_some_iff.mp stage
  simp only [step, advance, hc, hs, asked, Option.bind_eq_bind, Option.bind_some]

end Runner

namespace History

theorem standing (h : History) (hr : h.now.Consistent) (recorded : h.Recorded) (n : Nat) :
    CallRecord.Standing (h.now.checkId? n) (h.record n) (h.now.stage? n) :=
  (recorded.2 n).standing fun _ _ stage about => hr.check stage about

theorem FindsAborted.refusal {h : History} {n : Nat} {c : String} (finds : h.FindsAborted n c)
    (hr : h.now.Consistent) (recorded : h.Recorded) : (h.record n).begun = [] ∧
      (∀ c', (h.record n).registered c' = 0) ∧
        ∃ s, h.now.stage? n = some s ∧ Refusal c s (h.record n).said (h.record n).accepted := by
  obtain ⟨about, finds⟩ := finds
  have same {c' : String} (mine : h.now.checkId? n = some c') : c' = c :=
    Option.some.inj (mine.symm.trans about)
  cases h.standing hr recorded n with
  | unanswered unanswered => exact absurd finds unanswered.not_finds
  | cleared mine clears =>
    rw [same mine] at clears
    exact absurd finds clears.not_finds
  | refused mine refused stage refusal =>
    rw [same mine] at refusal
    rw [refused.said, refused.accepted]
    exact ⟨refused.begun, refused.registered, _, stage, refusal⟩

/-- Until it has sent its state, a call that refuses to run its check goes on by itself. -/
theorem FindsAborted.goes_on {h : History} {n : Nat} {c : String} (finds : h.FindsAborted n c)
    (hr : h.now.Consistent) (recorded : h.Recorded) (unsaid : (h.record n).said = []) : ∃ r out,
      h.now.step (.advance n .onward) = some (r, out) ∧
        (out = [.sent n (.plain c .aborted)] ∨ ∃ job names,
          h.now.stage? n = some (.lookingUp job (.storing names)) ∧
            r.stage? n = some (.lookingUp job (.found true))) := by
  obtain ⟨list, asked⟩ := Option.isSome_iff_exists.mp recorded.1
  obtain ⟨-, -, s, stage, refusal⟩ := finds.refusal hr recorded
  rw [unsaid] at refusal
  generalize (h.record n).accepted = accepted at refusal
  cases refusal with
  | @storing job names found mine =>
    have found : job.checkId ∈ names := mine ▸ found
    have aborted : (list.store job.checkId names).2 = .found true := by
      simp [AbortList.store, found]
    have step := step_lookingUp asked stage .onward
    refine ⟨_, _, step.trans rfl, .inr ⟨job, names, stage, ?_⟩⟩
    show (h.now.move n (.lookingUp job (list.store job.checkId names).2)).stage? n = _
    rw [aborted]
    exact stage?_move stage _
  | @found job mine =>
    have step := step_lookingUp asked stage .onward
    subst mine
    exact ⟨_, _, step.trans rfl, .inl rfl⟩

theorem ran_of_begun {h : History} {n : Nat} {run : RunSpec} (hr : h.now.Consistent)
    (recorded : h.Recorded) (mem : run ∈ (h.record n).begun) :
    (h.record n).Ran run.checkId := by
  cases h.standing hr recorded n with
  | unanswered unanswered =>
    rw [unanswered.begun] at mem
    cases mem
  | cleared _ _ ran =>
    rcases ran with none | ran
    · rw [none] at mem
      cases mem
    · rw [ran.begun run mem]
      exact ran
  | refused _ refused =>
    rw [refused.begun] at mem
    cases mem

variable (timeLimit : Span) (list : AbortList) (events : List RunnerEvent)

/-- **The gate before a run.** -/
theorem abort_gate : ((Runner.start timeLimit (some list)).history events).Gated := by
  have hr := consistent timeLimit (some list) events
  have recorded := recorded timeLimit list events
  have tally := tally timeLimit (some list) events
  generalize (Runner.start timeLimit (some list)).history events = h at hr recorded tally
  obtain ⟨list', asked⟩ := Option.isSome_iff_exists.mp recorded.1
  constructor
  case begins =>
    intro n run mem
    have ran := ran_of_begun hr recorded mem
    have registered := ran.registered
    rw [record_registered] at registered
    have once := (tally n run.checkId).le.2
    exact ⟨ran.names, by omega⟩
  case refuses =>
    intro n c finds
    obtain ⟨begun, registered, refusal⟩ := finds.refusal hr recorded
    exact ⟨begun, fun c' => record_registered h n c' ▸ registered c', refusal⟩
  case sends =>
    intro n c finds unsaid
    exact finds.goes_on hr recorded unsaid
  case postpones =>
    intro n l failed
    cases h.standing hr recorded n with
    | unanswered unanswered postponed =>
      rw [unanswered.failures] at failed
      exact ⟨unanswered.said, unanswered.begun,
        fun c => record_registered h n c ▸ unanswered.registered c, unanswered.renewals,
        postponed l failed⟩
    | cleared _ clears =>
      rw [clears.failures] at failed
      cases failed
    | refused _ refused =>
      rw [refused.failures] at failed
      cases failed
  case keeps =>
    intro n job e stage
    have step := step_lookingUp asked stage .onward
    exact ⟨_, step.trans rfl, stage?_move stage (.done .keep)⟩

end History

end CheckAgent
