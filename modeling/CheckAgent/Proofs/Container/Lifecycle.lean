import CheckAgent.Container.Run
import CheckAgent.Proofs.Retry.Delays

/-!
# Every container is removed

The calls of a run are pulls and then **the life of a container**, `Life`: it is made, started,
waited for, stopped or read, and removed. A life ends early where a call fails, and a cancellation
or the time limit cuts it short, but once a container has been made the last call removes it.

**Main result** (`lifecycle`). This holds for every runtime, however long its calls take and
whatever they answer, for every retryer of pulls whose delays can be computed, every time limit and
instant of cancellation, and for every order of things that fall on one instant. There is one
result. The delays of a retryer that doubles them can always be computed.

`Passes` lists the ways in which a run can go, for every retryer, and `passes_follow` finds the one
that it goes. Only where the delay behind a pull cannot be computed there is no result
(`result_follow_eq_none`).
-/

namespace CheckAgent

open CheckAgent.Number CheckAgent.Text

namespace RuntimeCall

/-- The container that a call is about. -/
def id? : RuntimeCall → Option String
  | .pull _ | .create _ _ => none
  | .start id | .wait id | .stop id _ | .logs id | .remove id _ => some id

/-- Whether a call needs a container that has been started. -/
def isUse : RuntimeCall → Bool
  | .wait _ | .stop _ _ | .logs _ => true
  | _ => false

/-- Whether a call removes a container. -/
def isRemoval : RuntimeCall → Bool
  | .remove _ _ => true
  | _ => false

end RuntimeCall

namespace ContainerRun

/-- The calls of a run in their order. -/
def word (c : ContainerRun) : List RuntimeCall := c.calls.map (·.2)

/-- The call that makes the container of a run. -/
def creation (host : ContainerHost) (run : RunSpec) : RuntimeCall :=
  .create run.checkId (.ofRun run host.agentAddress host.vars)

/-- A number of pulls of the image. -/
def pullWord (run : RunSpec) (k : Nat) : List RuntimeCall := List.replicate k (.pull run.image)

/-- The life of a container and the result of its run. -/
inductive Life (host : ContainerHost) (rt : Runtime) (run : RunSpec) :
    List RuntimeCall → Except RunError Bytes → Prop where
  | unmade {e : ContainerError} (fails : rt.create.outcome = .error e) :
      Life host rt run [creation host run] (.error (.create run.checkId e))
  | unstarted {id : String} {e : ContainerError} (made : rt.create.outcome = .ok id)
      (fails : rt.start.outcome = .error e) :
      Life host rt run [creation host run, .start id, .remove id true]
        (.error (.start run.checkId e))
  | lost {id : String} {e : ContainerError} (made : rt.create.outcome = .ok id)
      (started : rt.start.outcome = .ok ()) (fails : rt.wait.outcome = .error e) :
      Life host rt run [creation host run, .start id, .wait id, .remove id true]
        (.error (.wait run.checkId e))
  | read {id : String} {code : Int} (made : rt.create.outcome = .ok id)
      (started : rt.start.outcome = .ok ()) (exits : rt.wait.outcome = .ok code) :
      Life host rt run [creation host run, .start id, .wait id, .logs id, .remove id true]
        (rt.logs.collect.mapError (.logs run.checkId))
  | stopped {id : String} {reason : RunError} (made : rt.create.outcome = .ok id)
      (started : rt.start.outcome = .ok ())
      (why : reason = .cancelled run.checkId ∨ reason = .timeout run.checkId run.timeLimit) :
      Life host rt run [creation host run, .start id, .wait id, .stop id grace, .remove id true]
        (.error reason)
  | stoppedUnasked {id : String} {reason : RunError} (made : rt.create.outcome = .ok id)
      (started : rt.start.outcome = .ok ())
      (why : reason = .cancelled run.checkId ∨ reason = .timeout run.checkId run.timeLimit) :
      Life host rt run [creation host run, .start id, .stop id grace, .remove id true]
        (.error reason)

/-- After so many pulls a container may be made: no image is pulled, or the last pull succeeded. -/
inductive Ready (host : ContainerHost) (rt : Runtime) : Nat → Prop where
  | unneeded (none : host.pulls = none) : Ready host rt 0
  | pulled {j : Nat} (succeeds : (rt.pull j).outcome = .ok ()) : Ready host rt (j + 1)

/-- The ways in which a run can go. -/
inductive Passes (host : ContainerHost) (rt : Runtime) (run : RunSpec) (around : Circumstances) :
    List RuntimeCall → Option (Except RunError Bytes) → Prop where
  | withdrawn {k : Nat} (unpulled : host.pulls = none → k = 0) :
      Passes host rt run around (pullWord run k) (some (.error (.cancelled run.checkId)))
  | unpulled {retryer : Retryer} {j : Nat} {e : ContainerError} (pulls : host.pulls = some retryer)
      (fails : (rt.pull j).outcome = .error e)
      (final : retryer.verdict j e.kind (around.chance j) = .giveUp) :
      Passes host rt run around (pullWord run (j + 1))
        (some (.error (.pull run.checkId run.image e)))
  | broken {retryer : Retryer} {j : Nat} {e : ContainerError} {why : SpanFault}
      (pulls : host.pulls = some retryer) (fails : (rt.pull j).outcome = .error e)
      (delay : retryer.verdict j e.kind (around.chance j) = .fault why) :
      Passes host rt run around (pullWord run (j + 1)) none
  | lived {k : Nat} {calls : List RuntimeCall} {result : Except RunError Bytes}
      (ready : Ready host rt k) (unpulled : host.pulls = none → k = 0)
      (life : Life host rt run calls result) :
      Passes host rt run around (pullWord run k ++ calls) (some result)

/-- The times of a course that begins at `t` do not decrease. -/
structure InTime (c : ContainerRun) (t : Nat) : Prop where
  begins : ∀ call ∈ c.calls, t ≤ call.1
  ordered : c.calls.Pairwise (·.1 ≤ ·.1)
  ends : ∀ call ∈ c.calls, call.1 ≤ c.ended
  runs : t ≤ c.ended

/-- What is true of the course of a run. -/
structure Lifecycle (host : ContainerHost) (rt : Runtime) (run : RunSpec) (around : Circumstances)
    (cancelAt : Option Nat) (c : ContainerRun) : Prop where
  /-- The calls are pulls and then the life of a container, if there is one. -/
  word : ∃ k life, c.word = pullWord run k ++ life ∧ (host.pulls = none → k = 0) ∧
    (life = [] ∨ Ready host rt k ∧ ∃ result, Life host rt run life result ∧ c.result = some result)
  /-- A container is made only if there is no registry or the last pull succeeded. -/
  ready : creation host run ∈ c.word →
    host.pulls = none ∨ ∃ j, c.word.count (.pull run.image) = j + 1 ∧ (rt.pull j).outcome = .ok ()
  /-- Calls about a container follow exactly if it was made, and name it. -/
  made : ∀ id, (∃ call ∈ c.word, call.id? = some id) ↔
    creation host run ∈ c.word ∧ rt.create.outcome = .ok id
  /-- A container that was made is removed, once and last. -/
  removed : ∀ id, creation host run ∈ c.word → rt.create.outcome = .ok id →
    c.word.getLast? = some (.remove id true) ∧ ∀ call ∈ c.word.dropLast, call.isRemoval = false
  /-- Waiting, stopping and reading need a container that was started. -/
  started : ∀ call ∈ c.word, call.isUse = true → rt.start.outcome = .ok ()
  /-- A container that is stopped is not read. -/
  exclusive : ∀ id id' d, .stop id d ∈ c.word → .logs id' ∉ c.word
  /-- The calls come one after another, and the result after all of them. -/
  inTime : c.InTime 0
  /-- There is a result. -/
  result : ∃ result, c.result = some result
  /-- What comes of stopping and of removing changes neither the calls nor the result. -/
  neutral : ∀ stop remove,
    (follow host { rt with stop, remove } run around cancelAt).word = c.word ∧
      (follow host { rt with stop, remove } run around cancelAt).result = c.result
  /-- A run goes on in the same way if nobody waits for its result. -/
  unheard : ∀ listens, follow host rt run { around with listens } cancelAt = c

/-! ## Words and results of the parts of a run -/

variable {host : ContainerHost} {rt : Runtime} {run : RunSpec} {around : Circumstances}
  {cancelAt : Option Nat} {id : String} {t : Nat}

@[simp] theorem word_after (time : Nat) (call : RuntimeCall) (c : ContainerRun) :
    (c.after time call).word = call :: c.word := rfl

@[simp] theorem result_after (time : Nat) (call : RuntimeCall) (c : ContainerRun) :
    (c.after time call).result = c.result := rfl

@[simp] theorem word_removing (result : Except RunError Bytes) :
    (removing rt id t result).word = [.remove id true] := rfl

@[simp] theorem result_removing (result : Except RunError Bytes) :
    (removing rt id t result).result = some result := rfl

@[simp] theorem word_stopping (reason : RunError) :
    (stopping rt id t reason).word = [.stop id grace, .remove id true] := rfl

@[simp] theorem result_stopping (reason : RunError) :
    (stopping rt id t reason).result = some (.error reason) := rfl

@[simp] theorem word_reading (checkId : String) :
    (reading rt checkId id t).word = [.logs id, .remove id true] := rfl

@[simp] theorem result_reading (checkId : String) :
    (reading rt checkId id t).result = some (rt.logs.collect.mapError (.logs checkId)) := rfl

/-- A wait that ends by itself was asked for. -/
theorem isAsked_of_returned {w : Wait} {first : WaitEnd} (h : w.ending first = .returned) :
    w.isAsked first = true := by
  simp [Wait.isAsked, h]

theorem life_starting (made : rt.create.outcome = .ok id) :
    ∃ result, Life host rt run (creation host run :: (starting rt run around cancelAt id t).word)
      result ∧ (starting rt run around cancelAt id t).result = some result := by
  unfold starting
  cases start : rt.start.outcome with
  | error e => exact ⟨_, .unstarted made start, rfl⟩
  | ok =>
    simp only [word_after, result_after]
    unfold waiting
    dsimp only
    generalize Wait.mk (t + rt.start.after) rt.wait.after (around.clock run.timeLimit) cancelAt = w
    cases ending : w.ending around.looksFirst with
    | returned =>
      rw [isAsked_of_returned ending, waited]
      cases wait : rt.wait.outcome with
      | error e => exact ⟨_, .lost made start wait, rfl⟩
      | ok code => exact ⟨_, .read made start wait, rfl⟩
    | cancelled =>
      cases w.isAsked around.looksFirst
      · exact ⟨_, .stoppedUnasked made start (.inl rfl), rfl⟩
      · exact ⟨_, .stopped made start (.inl rfl), rfl⟩
    | timedOut =>
      cases w.isAsked around.looksFirst
      · exact ⟨_, .stoppedUnasked made start (.inr rfl), rfl⟩
      · exact ⟨_, .stopped made start (.inr rfl), rfl⟩

theorem passes_creating {k : Nat} (ready : Ready host rt k) (unpulled : host.pulls = none → k = 0) :
    Passes host rt run around (pullWord run k ++ (creating host rt run around cancelAt t).word)
      (creating host rt run around cancelAt t).result := by
  unfold creating
  split
  · simpa [word] using .withdrawn unpulled
  · simp only [word_after, result_after]
    cases made : rt.create.outcome with
    | error e => exact .lived ready unpulled (.unmade made)
    | ok id =>
      obtain ⟨result, life, eq⟩ := life_starting made (t := t + rt.create.after)
      dsimp only
      rw [eq]
      exact .lived ready unpulled life

theorem word_pullCalls (starts : List Nat) :
    (pullCalls run starts).map (·.2) = pullWord run starts.length := by
  simp [pullCalls, pullWord, Function.comp_def, List.map_const']

/-- The pulls of an image are a course of attempts. -/
theorem runs_pulls (rt : Runtime) (around : Circumstances) (retryer : Retryer) :
    retryer.Runs around.clock ContainerError.kind
      (fun i => ((rt.pull i).after, (rt.pull i).outcome)) around.chance none 0 0
      (pulls rt around retryer) :=
  retryer.runs_run ..

theorem passes_pulling {retryer : Retryer} (pulls : host.pulls = some retryer) :
    Passes host rt run around (pulling host rt run around cancelAt retryer).word
      (pulling host rt run around cancelAt retryer).result := by
  have unpulled (k : Nat) : host.pulls = none → k = 0 := fun none => by
    rw [pulls] at none; cases none
  obtain ⟨m, length, ends⟩ := (runs_pulls rt around retryer).ends
  unfold pulling
  dsimp only
  generalize ContainerRun.pulls rt around retryer = course at length ends
  obtain ⟨starts, ended, ending⟩ := course
  dsimp only at length ends ⊢
  split
  · next c _ =>
    rw [word, word_pullCalls]
    exact .withdrawn (unpulled _)
  · cases ends with
    | failed fails final =>
      rw [word, word_pullCalls, ← Nat.add_zero starts.length, length]
      exact .unpulled pulls fails final
    | cut _ _ cancelled => cases cancelled
    | fault fails delay =>
      rw [word, word_pullCalls, ← Nat.add_zero starts.length, length]
      exact .broken pulls fails delay
    | done succeeds =>
      rw [word, behind, List.map_append, word_pullCalls, ← Nat.add_zero starts.length, length]
      exact passes_creating (.pulled succeeds) (unpulled _)

/-- **The way of a run.** A run goes in one of the ways listed. -/
theorem passes_follow :
    Passes host rt run around (follow host rt run around cancelAt).word
      (follow host rt run around cancelAt).result := by
  unfold follow
  split
  · next retryer pulls => exact passes_pulling pulls
  · next none => exact passes_creating (.unneeded none) fun _ => rfl

/-! ## Time -/

theorem InTime.mono {c : ContainerRun} {s : Nat} (h : c.InTime s) (le : t ≤ s) : c.InTime t where
  begins call hcall := le.trans (h.begins call hcall)
  ordered := h.ordered
  ends := h.ends
  runs := le.trans h.runs

theorem InTime.after {c : ContainerRun} {s : Nat} (h : c.InTime s) (le : t ≤ s)
    (call : RuntimeCall) : (c.after t call).InTime t where
  begins := List.forall_mem_cons.mpr ⟨le_rfl, (h.mono le).begins⟩
  ordered := List.pairwise_cons.mpr ⟨(h.mono le).begins, h.ordered⟩
  ends := List.forall_mem_cons.mpr ⟨(h.mono le).runs, h.ends⟩
  runs := (h.mono le).runs

theorem inTime_nil {ended : Nat} (le : t ≤ ended) (result : Option (Except RunError Bytes)) :
    (⟨[], ended, result⟩ : ContainerRun).InTime t :=
  ⟨by simp, .nil, by simp, le⟩

theorem inTime_removing (result : Except RunError Bytes) : (removing rt id t result).InTime t :=
  (inTime_nil (Nat.le_add_right ..) _).after le_rfl _

theorem inTime_stopping (reason : RunError) : (stopping rt id t reason).InTime t :=
  (inTime_removing _).after (Nat.le_add_right ..) _

theorem inTime_reading (checkId : String) : (reading rt checkId id t).InTime t :=
  (inTime_removing _).after (Nat.le_add_right ..) _

theorem began_le_instant (w : Wait) : w.began ≤ w.instant := by
  unfold Wait.instant Wait.due
  cases w.cancelAt with
  | none => exact Nat.le_add_right ..
  | some c => exact le_min (Nat.le_add_right ..) (le_max_left ..)

theorem inTime_waited (ending : WaitEnd) : (waited rt run id t ending).InTime t := by
  cases ending with
  | returned =>
    unfold waited
    cases rt.wait.outcome with
    | ok code => exact inTime_reading _
    | error e => exact inTime_removing _
  | cancelled | timedOut => exact inTime_stopping _

theorem inTime_waiting : (waiting rt run around cancelAt id t).InTime t := by
  unfold waiting
  dsimp only
  have le : t ≤ Wait.instant ⟨t, rt.wait.after, around.clock run.timeLimit, cancelAt⟩ :=
    began_le_instant ⟨t, rt.wait.after, around.clock run.timeLimit, cancelAt⟩
  generalize Wait.mk t rt.wait.after (around.clock run.timeLimit) cancelAt = w at le ⊢
  split
  · exact (inTime_waited _).after le _
  · exact (inTime_waited _).mono le

theorem inTime_starting : (starting rt run around cancelAt id t).InTime t := by
  unfold starting
  dsimp only
  cases rt.start.outcome with
  | error e => exact (inTime_removing _).after (Nat.le_add_right ..) _
  | ok => exact inTime_waiting.after (Nat.le_add_right ..) _

theorem inTime_creating : (creating host rt run around cancelAt t).InTime t := by
  unfold creating
  split
  · exact inTime_nil le_rfl _
  · cases rt.create.outcome with
    | error e => exact (inTime_nil le_rfl _).after (Nat.le_add_right ..) _
    | ok id => exact inTime_starting.after (Nat.le_add_right ..) _

theorem inTime_pullCalls {starts : List Nat} {ended : Nat} (ordered : starts.Pairwise (· ≤ ·))
    (ends : ∀ s ∈ starts, s ≤ ended) (result : Option (Except RunError Bytes)) :
    (⟨pullCalls run starts, ended, result⟩ : ContainerRun).InTime 0 where
  begins _ _ := Nat.zero_le _
  ordered := List.pairwise_map.mpr ordered
  ends := List.forall_mem_map.mpr ends
  runs := Nat.zero_le _

theorem InTime.behind {c : ContainerRun} {starts : List Nat} (h : c.InTime t)
    (ordered : starts.Pairwise (· ≤ ·)) (ends : ∀ s ∈ starts, s ≤ t) :
    (c.behind (pullCalls run starts)).InTime 0 where
  begins _ _ := Nat.zero_le _
  ordered := List.pairwise_append.mpr ⟨List.pairwise_map.mpr ordered, h.ordered,
    List.forall_mem_map.mpr fun s hs call hcall => (ends s hs).trans (h.begins call hcall)⟩
  ends := List.forall_mem_append.mpr
    ⟨List.forall_mem_map.mpr fun s hs => (ends s hs).trans h.runs, h.ends⟩
  runs := Nat.zero_le _

theorem inTime_pulling (retryer : Retryer) :
    (pulling host rt run around cancelAt retryer).InTime 0 := by
  have pulls := (runs_pulls rt around retryer).inTime
  unfold pulling
  dsimp only
  generalize ContainerRun.pulls rt around retryer = course at pulls
  split
  · next c _ =>
    refine inTime_pullCalls (pulls.ordered.filter _) (fun s hs => ?_) _
    have before := (List.mem_filter.mp hs).2
    unfold Circumstances.beginsBefore at before
    split at before <;> simp at before <;> omega
  · split
    · exact inTime_pullCalls pulls.ordered pulls.ends _
    · exact inTime_pullCalls pulls.ordered pulls.ends _
    · exact inTime_creating.behind pulls.ordered pulls.ends

theorem inTime_follow : (follow host rt run around cancelAt).InTime 0 := by
  unfold follow
  split
  · exact inTime_pulling _
  · exact inTime_creating

/-! ## What comes of stopping and removing -/

/-- Two courses with the same calls and the same result. -/
def Alike (c c' : ContainerRun) : Prop := c.word = c'.word ∧ c.result = c'.result

theorem Alike.after {c c' : ContainerRun} {s s' : Nat} {call : RuntimeCall} (h : c.Alike c') :
    (c.after s call).Alike (c'.after s' call) :=
  ⟨congrArg (call :: ·) h.1, h.2⟩

variable (stop remove : Reply Unit)

theorem alike_waited (s : Nat) (ending : WaitEnd) :
    (waited { rt with stop, remove } run id t ending).Alike (waited rt run id s ending) := by
  cases ending with
  | returned =>
    unfold waited
    dsimp only
    cases rt.wait.outcome <;> exact ⟨rfl, rfl⟩
  | cancelled | timedOut => exact ⟨rfl, rfl⟩

theorem alike_waiting : (waiting { rt with stop, remove } run around cancelAt id t).Alike
    (waiting rt run around cancelAt id t) := by
  unfold waiting
  dsimp only
  split
  · exact (alike_waited stop remove _ _).after
  · exact alike_waited stop remove _ _

theorem alike_starting : (starting { rt with stop, remove } run around cancelAt id t).Alike
    (starting rt run around cancelAt id t) := by
  unfold starting
  dsimp only
  cases rt.start.outcome with
  | error e => exact ⟨rfl, rfl⟩
  | ok => exact (alike_waiting stop remove).after

theorem alike_creating : (creating host { rt with stop, remove } run around cancelAt t).Alike
    (creating host rt run around cancelAt t) := by
  unfold creating
  split
  · exact ⟨rfl, rfl⟩
  · dsimp only
    cases rt.create.outcome with
    | error e => exact ⟨rfl, rfl⟩
    | ok id => exact (alike_starting stop remove).after

theorem Alike.behind {c c' : ContainerRun} {calls : List (Nat × RuntimeCall)} (h : c.Alike c') :
    (c.behind calls).Alike (c'.behind calls) :=
  ⟨by simp [word, ContainerRun.behind, show c.calls.map (·.2) = c'.calls.map (·.2) from h.1], h.2⟩

theorem alike_follow : (follow host { rt with stop, remove } run around cancelAt).Alike
    (follow host rt run around cancelAt) := by
  unfold follow
  split
  · next retryer _ =>
    unfold pulling
    dsimp only
    rw [show pulls { rt with stop, remove } around retryer = pulls rt around retryer from rfl]
    split
    · exact ⟨rfl, rfl⟩
    · split
      · exact ⟨rfl, rfl⟩
      · exact ⟨rfl, rfl⟩
      · exact (alike_creating stop remove).behind
  · exact alike_creating stop remove

/-! ## The life cycle -/

variable {calls : List RuntimeCall} {result : Option (Except RunError Bytes)}

theorem of_mem_pullWord {call : RuntimeCall} {k : Nat} (h : call ∈ pullWord run k) :
    call = .pull run.image := (List.mem_replicate.mp h).2

theorem Passes.word (passes : Passes host rt run around calls result) :
    ∃ k life, calls = pullWord run k ++ life ∧ (host.pulls = none → k = 0) ∧
      (life = [] ∨ Ready host rt k ∧ ∃ r, Life host rt run life r ∧ result = some r) := by
  cases passes with
  | withdrawn unpulled => exact ⟨_, [], (List.append_nil _).symm, unpulled, .inl rfl⟩
  | unpulled pulls | broken pulls =>
    refine ⟨_, [], (List.append_nil _).symm, fun none => ?_, .inl rfl⟩
    rw [pulls] at none
    cases none
  | lived ready unpulled life => exact ⟨_, _, rfl, unpulled, .inr ⟨ready, _, life, rfl⟩⟩

/-- A call that pulls nothing belongs to the life of a container. -/
theorem Passes.life (passes : Passes host rt run around calls result) {call : RuntimeCall}
    (mem : call ∈ calls) (other : call ≠ .pull run.image) :
    ∃ k life r, calls = pullWord run k ++ life ∧ Ready host rt k ∧ Life host rt run life r ∧
      call ∈ life := by
  cases passes with
  | lived ready _ life =>
    refine ⟨_, _, _, rfl, ready, life, (List.mem_append.mp mem).resolve_left fun pull => ?_⟩
    exact other (of_mem_pullWord pull)
  | _ => exact absurd (of_mem_pullWord mem) other

theorem Life.creation_mem {r : Except RunError Bytes} (life : Life host rt run calls r) :
    creation host run ∈ calls := by
  cases life <;> exact List.mem_cons_self ..

theorem ne_pull_of_id? {call : RuntimeCall} (about : call.id? = some id) :
    call ≠ .pull run.image := by
  rintro rfl
  cases about

theorem ne_pull_of_isUse {call : RuntimeCall} (use : call.isUse = true) :
    call ≠ .pull run.image := by
  rintro rfl
  cases use

theorem Life.made_iff {r : Except RunError Bytes} (life : Life host rt run calls r) :
    (∃ call ∈ calls, call.id? = some id) ↔ rt.create.outcome = .ok id := by
  cases life <;> simp_all [creation, RuntimeCall.id?]

theorem Life.removed {r : Except RunError Bytes} (life : Life host rt run calls r)
    (made : rt.create.outcome = .ok id) :
    calls.getLast? = some (.remove id true) ∧ ∀ call ∈ calls.dropLast, call.isRemoval = false := by
  cases life with
  | unmade fails => rw [made] at fails; cases fails
  | unstarted made' | lost made' | read made' | stopped made' | stoppedUnasked made' =>
    rw [made] at made'
    cases made'
    exact ⟨rfl, by simp [creation, RuntimeCall.isRemoval]⟩

theorem Life.started {r : Except RunError Bytes} (life : Life host rt run calls r)
    {call : RuntimeCall} (h : call ∈ calls) (use : call.isUse = true) :
    rt.start.outcome = .ok () := by
  cases life with
  | unmade =>
    obtain rfl := List.mem_singleton.mp h
    cases use
  | unstarted =>
    simp only [List.mem_cons, List.not_mem_nil, or_false] at h
    rcases h with rfl | rfl | rfl <;> cases use
  | lost _ started | read _ started | stopped _ started | stoppedUnasked _ started => exact started

theorem Life.exclusive {r : Except RunError Bytes} (life : Life host rt run calls r) {d : Span}
    (stops : .stop id d ∈ calls) (id' : String) : .logs id' ∉ calls := by
  cases life <;> simp_all [creation]

theorem count_pull {r : Except RunError Bytes} (life : Life host rt run calls r) (k : Nat) :
    (pullWord run k ++ calls).count (.pull run.image) = k := by
  have none : calls.count (.pull run.image) = 0 := by
    rw [List.count_eq_zero]
    cases life <;> simp [creation]
  rw [List.count_append, none, pullWord, List.count_replicate_self, Nat.add_zero]

theorem Ready.last_pull {k : Nat} (ready : Ready host rt k) :
    host.pulls = none ∨ ∃ j, k = j + 1 ∧ (rt.pull j).outcome = .ok () := by
  cases ready with
  | unneeded none => exact .inl none
  | pulled succeeds => exact .inr ⟨_, rfl, succeeds⟩

theorem result_creating_ne_none : (creating host rt run around cancelAt t).result ≠ none := by
  unfold creating
  split
  · nofun
  · cases made : rt.create.outcome with
    | error e => nofun
    | ok id =>
      intro none
      obtain ⟨r, -, eq⟩ := (life_starting made : ∃ r, Life host _ _ _ r ∧ _)
      cases none.symm.trans eq

theorem filter_isCancelled :
    (cancelAt.filter fun c => around.isCancelled (some c) t) =
      if around.isCancelled cancelAt t then cancelAt else none := by
  cases cancelAt <;> simp [Option.filter, Circumstances.isCancelled]

/-- A run has no result if its pulls break down and it has not been cancelled by then. -/
theorem result_follow_eq_none : (follow host rt run around cancelAt).result = none ↔
    ∃ retryer why, host.pulls = some retryer ∧ (pulls rt around retryer).ending = .fault why ∧
      around.isCancelled cancelAt (pulls rt around retryer).ended = false := by
  unfold follow
  split
  · next retryer registry =>
    unfold pulling
    dsimp only
    rw [filter_isCancelled, registry]
    cases cancelled : around.isCancelled cancelAt (pulls rt around retryer).ended with
    | true =>
      cases cancelAt with
      | none => cases cancelled
      | some c => simp [cancelled]
    | false =>
      cases ending : (pulls rt around retryer).ending with
      | done => simp [ending, behind, result_creating_ne_none]
      | failed e => simp [ending]
      | fault why => simp [ending, cancelled]
  · next none => simp [none, result_creating_ne_none]

/-- **Every container is removed.** Whatever the runtime does, whatever is pulled, and whenever the
run is cancelled or its time is up, the course of a run is a life cycle. -/
theorem lifecycle (host : ContainerHost) (rt : Runtime) (run : RunSpec) (around : Circumstances)
    (cancelAt : Option Nat)
    (computes : ∀ retryer, host.pulls = some retryer → retryer.Computes around.chance) :
    Lifecycle host rt run around cancelAt (follow host rt run around cancelAt) where
  word := passes_follow.word
  ready created := by
    obtain ⟨k, calls, r, eq, ready, life, -⟩ := passes_follow.life created nofun
    rw [eq, count_pull life]
    exact ready.last_pull
  made id := by
    constructor
    · rintro ⟨call, mem, about⟩
      obtain ⟨k, calls, r, eq, -, life, mem⟩ := passes_follow.life mem (ne_pull_of_id? about)
      exact ⟨eq ▸ List.mem_append_right _ life.creation_mem, life.made_iff.mp ⟨call, mem, about⟩⟩
    · rintro ⟨created, made⟩
      obtain ⟨k, calls, r, eq, -, life, -⟩ := passes_follow.life created nofun
      obtain ⟨call, mem, about⟩ := life.made_iff.mpr made
      exact ⟨call, eq ▸ List.mem_append_right _ mem, about⟩
  removed id created made := by
    obtain ⟨k, calls, r, eq, -, life, -⟩ := passes_follow.life created nofun
    obtain ⟨last, only⟩ := life.removed made
    rw [eq, List.getLast?_append, last,
      List.dropLast_append_of_ne_nil (List.ne_nil_of_mem life.creation_mem)]
    refine ⟨rfl, List.forall_mem_append.mpr ⟨fun call pull => ?_, only⟩⟩
    rw [of_mem_pullWord pull]
    rfl
  started call mem use := by
    obtain ⟨k, calls, r, -, -, life, mem⟩ := passes_follow.life mem (ne_pull_of_isUse use)
    exact life.started mem use
  exclusive id id' d stops reads := by
    obtain ⟨k, calls, r, eq, -, life, mem⟩ := passes_follow.life stops nofun
    refine life.exclusive mem id' ?_
    refine (List.mem_append.mp (eq ▸ reads)).resolve_left fun pull => ?_
    cases of_mem_pullWord pull
  inTime := inTime_follow
  result := by
    refine Option.ne_none_iff_exists'.mp fun none => ?_
    obtain ⟨retryer, why, pulls, broken, -⟩ := result_follow_eq_none.mp none
    exact Retryer.ending_ne_fault (computes retryer pulls) broken
  neutral stop remove := alike_follow stop remove
  unheard listens := rfl

/-! ## A run that is cancelled -/

/-- A registry whose pulls are repeated after a tenth of a second, and then after twice as long. -/
def patientHost : ContainerHost := ⟨"", [], some (.doubling 2 (.ofMillis 100))⟩

/-- A runtime that cannot be reached at first. Its container goes on for a minute, and can be
neither stopped nor removed. -/
def stubborn : Runtime where
  pull i := ⟨10, if i = 0 then .error (.connect "connection refused") else .ok ()⟩
  create := ⟨10, .ok "id"⟩
  start := ⟨10, .ok ()⟩
  wait := ⟨60000, .ok 0⟩
  stop := ⟨10, .error (.connect "connection refused")⟩
  remove := ⟨10, .error (.connect "connection refused")⟩
  logs := []
  logsAfter := 0

def anyRun : RunSpec := ⟨"c", ⟨"", ""⟩, "image", "", "", "", [], .ofSeconds 60⟩

theorem computes_patientHost :
    ∀ retryer, patientHost.pulls = some retryer → retryer.Computes Circumstances.plain.chance := by
  rintro retryer ⟨⟩
  exact Retryer.computes_doubling 2 (.ofMillis 100) fun _ => rfl

/-- The image is pulled twice. The run is cancelled while its container is waited for, which is then
stopped and removed. -/
theorem stopped_and_removed :
    Lifecycle patientHost stubborn anyRun .plain (some 500)
      (follow patientHost stubborn anyRun .plain (some 500)) ∧
    (follow patientHost stubborn anyRun .plain (some 500)).word =
      [.pull "image", .pull "image", creation patientHost anyRun, .start "id", .wait "id",
        .stop "id" grace, .remove "id" true] ∧
    (follow patientHost stubborn anyRun .plain (some 500)).result =
      some (.error (.cancelled "c")) := by
  have life := lifecycle patientHost stubborn anyRun .plain (some 500) computes_patientHost
  exact ⟨life, by decide +kernel, by decide +kernel⟩

end ContainerRun

end CheckAgent
