import CheckAgent.Proofs.Container.Lifecycle

/-!
# The outcome of a run as a function of time

A cancellation does different things to a run in its different phases.

* **Before a container would be made** (`readyAt`) it ends the run at once. No pull begins after it,
  and one that goes on is abandoned.
* **From then on until the container has started** (`startedAt`) it does nothing: a pull, a creation
  or a start that failed is the failure of the run, whenever the run is cancelled.
* **While the container is waited for** it is one of three things that may end the wait, the others
  being that the container exits and that its time is up. `Decision` says what follows from each.
  The earliest of the three decides.
* **Later** it does nothing.

**Main result** (`outcome`). The whole course of a run, its calls with their times, its end and its
result, is as described, for every runtime, retryer of pulls whose delays can be computed, time
limit and instant of cancellation.
-/

namespace CheckAgent

open CheckAgent.Number CheckAgent.Text

namespace ContainerRun

/-- When the pulls would begin that come before a container, if the run were left alone. -/
def pullStarts (host : ContainerHost) (rt : Runtime) (around : Circumstances) : List Nat :=
  host.pulls.elim [] fun retryer => (pulls rt around retryer).starts

/-- When a container would be made: at the end of the pulls, or at once. -/
def readyAt (host : ContainerHost) (rt : Runtime) (around : Circumstances) : Nat :=
  host.pulls.elim 0 fun retryer => (pulls rt around retryer).ended

/-- When the start of the container would return. -/
def startedAt (host : ContainerHost) (rt : Runtime) (around : Circumstances) : Nat :=
  readyAt host rt around + rt.create.after + rt.start.after

/-- A container is made: the image is there, and the run has not been cancelled. -/
structure Makes (host : ContainerHost) (rt : Runtime) (around : Circumstances)
    (cancelAt : Option Nat) : Prop where
  pulled : ∀ retryer, host.pulls = some retryer → (pulls rt around retryer).ending = .done ()
  kept : around.isCancelled cancelAt (readyAt host rt around) = false

/-- A container is made, and starts. -/
structure Starts (host : ContainerHost) (rt : Runtime) (around : Circumstances)
    (cancelAt : Option Nat) (id : String) : Prop extends Makes host rt around cancelAt where
  made : rt.create.outcome = .ok id
  started : rt.start.outcome = .ok ()

/-- The calls up to the moment at which a container has been made. -/
def making (host : ContainerHost) (rt : Runtime) (run : RunSpec) (around : Circumstances) :
    List (Nat × RuntimeCall) :=
  pullCalls run (pullStarts host rt around) ++ [(readyAt host rt around, creation host run)]

/-- The calls up to the moment at which the container has started. -/
def launching (host : ContainerHost) (rt : Runtime) (run : RunSpec) (around : Circumstances)
    (id : String) : List (Nat × RuntimeCall) :=
  making host rt run around ++ [(readyAt host rt around + rt.create.after, .start id)]

/-- The end of a wait for a container: when it comes, what is called then and for how long, and the
result of the run. -/
structure Decision where
  instant : Nat
  call : Option RuntimeCall
  busy : Nat
  result : Except RunError Bytes

/-- What may end a wait for a container that started at `s`. A cancellation may have come before. -/
inductive Decides (rt : Runtime) (run : RunSpec) (around : Circumstances) (cancelAt : Option Nat)
    (id : String) (s : Nat) : Decision → Prop where
  | exited {code : Int} (exits : rt.wait.outcome = .ok code) :
      Decides rt run around cancelAt id s ⟨s + rt.wait.after, some (.logs id), rt.logsAfter,
        rt.logs.collect.mapError (.logs run.checkId)⟩
  | lost {e : ContainerError} (fails : rt.wait.outcome = .error e) :
      Decides rt run around cancelAt id s
        ⟨s + rt.wait.after, none, 0, .error (.wait run.checkId e)⟩
  | cancelled {c : Nat} (cancel : cancelAt = some c) :
      Decides rt run around cancelAt id s ⟨max s c, some (.stop id (.ofSeconds 5)), rt.stop.after,
        .error (.cancelled run.checkId)⟩
  | timedOut :
      Decides rt run around cancelAt id s ⟨s + around.clock run.timeLimit,
        some (.stop id (.ofSeconds 5)), rt.stop.after,
        .error (.timeout run.checkId run.timeLimit)⟩

/-- The things that may end a wait come at distinct instants, and none of them has come when it
begins, except perhaps a cancellation. -/
structure Untied (rt : Runtime) (run : RunSpec) (around : Circumstances) (cancelAt : Option Nat)
    (s : Nat) : Prop where
  limited : 0 < around.clock run.timeLimit
  goesOn : 0 < rt.wait.after
  apart : rt.wait.after ≠ around.clock run.timeLimit
  cancel : ∀ c, cancelAt = some c →
    c ≠ s + rt.wait.after ∧ c ≠ s + around.clock run.timeLimit

/-- What follows a decision. The container is removed in the end. -/
def concluding (rt : Runtime) (id : String) (d : Decision) : ContainerRun :=
  ⟨d.call.toList.map (d.instant, ·) ++ [(d.instant + d.busy, .remove id true)],
    d.instant + d.busy + rt.remove.after, some d.result⟩

/-- The course of a run whose container has started and is waited for until a decision. The runtime
is asked to wait unless the decision has come when the container has started. -/
def Concludes (host : ContainerHost) (rt : Runtime) (run : RunSpec) (around : Circumstances)
    (id : String) (d : Decision) (c : ContainerRun) : Prop :=
  ∃ waits, (waits = [(startedAt host rt around, .wait id)] ∨
      waits = [] ∧ d.instant = startedAt host rt around) ∧
    c = (concluding rt id d).behind (launching host rt run around id ++ waits)

/-- The course of a run, by the times at which things happen. -/
structure Outcome (host : ContainerHost) (rt : Runtime) (run : RunSpec) (around : Circumstances)
    (cancelAt : Option Nat) (c : ContainerRun) : Prop where
  /-- Cancelled before a container would be made, a run ends at that moment. It has made the pulls
  that began before. -/
  withdrawn : ∀ t, cancelAt = some t →
    around.isCancelled cancelAt (readyAt host rt around) = true →
      c.result = some (.error (.cancelled run.checkId)) ∧ c.ended = t ∧
        c.calls = pullCalls run ((pullStarts host rt around).filter (around.beginsBefore t)) ∧
          creation host run ∉ c.word ∧ ∀ call ∈ c.calls, call.1 ≤ t
  /-- Pulls end well, or fail for good. -/
  pulled : ∀ retryer, host.pulls = some retryer → (pulls rt around retryer).ending = .done () ∨
    ∃ e, (pulls rt around retryer).ending = .failed e
  /-- Pulls that fail for good end a run that has not been cancelled by then, with the error of the
  last one. -/
  unpulled : ∀ retryer e, host.pulls = some retryer →
    (pulls rt around retryer).ending = .failed e →
      around.isCancelled cancelAt (readyAt host rt around) = false →
        (∃ k, (pullStarts host rt around).length = k + 1 ∧ (rt.pull k).outcome = .error e) ∧
          c = ⟨pullCalls run (pullStarts host rt around), readyAt host rt around,
            some (.error (.pull run.checkId run.image e))⟩
  /-- A container that cannot be made ends it. -/
  unmade : ∀ e, Makes host rt around cancelAt → rt.create.outcome = .error e →
    c = ⟨making host rt run around, readyAt host rt around + rt.create.after,
      some (.error (.create run.checkId e))⟩
  /-- A container that cannot be started ends it. -/
  unstarted : ∀ id e, Makes host rt around cancelAt → rt.create.outcome = .ok id →
    rt.start.outcome = .error e →
      c = ⟨launching host rt run around id ++ [(startedAt host rt around, .remove id true)],
        startedAt host rt around + rt.remove.after, some (.error (.start run.checkId e))⟩
  /-- A container that has started is waited for until the earliest decision. -/
  decided : ∀ id, Starts host rt around cancelAt id →
    ∃ d, Decides rt run around cancelAt id (startedAt host rt around) d ∧
      (∀ d', Decides rt run around cancelAt id (startedAt host rt around) d' →
        d.instant ≤ d'.instant) ∧
      Concludes host rt run around id d c
  /-- Where the instants are distinct, the earliest decision is the one that is taken. -/
  determined : ∀ id d, Starts host rt around cancelAt id →
    Untied rt run around cancelAt (startedAt host rt around) →
      Decides rt run around cancelAt id (startedAt host rt around) d →
        (∀ d', Decides rt run around cancelAt id (startedAt host rt around) d' →
          d.instant ≤ d'.instant) →
          Concludes host rt run around id d c
  /-- A cancellation after the container has exited or its time is up does nothing. -/
  late : ∀ id t, Starts host rt around cancelAt id → cancelAt = some t →
    startedAt host rt around + min rt.wait.after (around.clock run.timeLimit) < t →
      c = follow host rt run around none

variable {host : ContainerHost} {rt : Runtime} {run : RunSpec} {around : Circumstances}
  {cancelAt : Option Nat} {id : String} {s t : Nat}

/-! ## The wait for a container -/

theorem instant_le_due (w : Wait) {e : WaitEnd} {d : Nat} (due : w.due e = some d) :
    w.instant ≤ d := by
  obtain ⟨s, duration, limit, cancelAt⟩ := w
  cases cancelAt <;> cases e <;> simp_all [Wait.instant, Wait.due] <;> omega

theorem exists_due_instant (w : Wait) : ∃ e, w.due e = some w.instant := by
  obtain ⟨s, duration, limit, cancelAt⟩ := w
  have own : ∃ e, (⟨s, duration, limit, cancelAt⟩ : Wait).due e =
      some (s + min duration limit) := by
    rcases Nat.le_total duration limit with le | le
    · exact ⟨.returned, by simp [Wait.due, le]⟩
    · exact ⟨.timedOut, by simp [Wait.due, le]⟩
  cases cancelAt with
  | none => exact own
  | some c =>
    rcases Nat.le_total (s + min duration limit) (max s c) with le | le
    · obtain ⟨e, due⟩ := own
      refine ⟨e, due.trans ?_⟩
      simp [Wait.instant, Wait.due, Nat.min_eq_left le]
    · refine ⟨.cancelled, ?_⟩
      simp [Wait.instant, Wait.due, Nat.min_eq_right le]

theorem mem_turns (first e : WaitEnd) : e ∈ first.turns := by
  cases first <;> cases e <;> decide

theorem due_ending (w : Wait) (first : WaitEnd) : w.due (w.ending first) = some w.instant := by
  have found : ∃ e ∈ first.turns, (w.due e).any (· ≤ w.instant) = true := by
    obtain ⟨e, due⟩ := exists_due_instant w
    exact ⟨e, mem_turns first e, by simp [due]⟩
  cases ending : first.turns.find? fun e => (w.due e).any (· ≤ w.instant) with
  | none =>
    obtain ⟨e, mem, due⟩ := found
    exact absurd due (List.find?_eq_none.mp ending e mem)
  | some e =>
    have holds := List.find?_some ending
    obtain ⟨d, due, le⟩ := (Option.any_eq_true _ _).mp holds
    have eq : d = w.instant := Nat.le_antisymm (by simpa using le) (instant_le_due w due)
    rw [Wait.ending, ending, Option.getD_some, due, eq]

/-- A runtime that is not asked to wait has nothing to wait for. -/
theorem instant_of_not_isAsked {w : Wait} {first : WaitEnd} (h : w.isAsked first = false) :
    w.instant = w.began := by
  have le : w.instant ≤ w.began := by
    simp only [Wait.isAsked, Bool.or_eq_false_iff, decide_eq_false_iff_not] at h
    omega
  exact Nat.le_antisymm le (began_le_instant w)

/-- The wait of a run for the container that started at `s`. -/
def waitFor (rt : Runtime) (run : RunSpec) (around : Circumstances) (cancelAt : Option Nat)
    (s : Nat) : Wait := ⟨s, rt.wait.after, around.clock run.timeLimit, cancelAt⟩

theorem Decides.instant_le {d : Decision} (decides : Decides rt run around cancelAt id s d) :
    (waitFor rt run around cancelAt s).instant ≤ d.instant := by
  cases decides with
  | exited | lost => exact instant_le_due (e := .returned) _ rfl
  | cancelled cancel =>
    exact instant_le_due (e := .cancelled) _ (by simp [waitFor, Wait.due, cancel])
  | timedOut => exact instant_le_due (e := .timedOut) _ rfl

theorem decides_waited {e : WaitEnd} {i : Nat}
    (due : (waitFor rt run around cancelAt s).due e = some i) :
    ∃ d, Decides rt run around cancelAt id s d ∧ d.instant = i ∧
      waited rt run id i e = concluding rt id d := by
  cases e with
  | returned =>
    obtain rfl := Option.some.inj due
    unfold waited
    cases exit : rt.wait.outcome with
    | ok code => exact ⟨_, .exited exit, rfl, rfl⟩
    | error e => exact ⟨_, .lost exit, rfl, rfl⟩
  | cancelled =>
    obtain ⟨c, cancel, rfl⟩ := Option.map_eq_some_iff.mp due
    exact ⟨_, .cancelled cancel, rfl, rfl⟩
  | timedOut =>
    obtain rfl := Option.some.inj due
    exact ⟨_, .timedOut, rfl, rfl⟩

/-- **The earliest decision.** A wait ends with the earliest decision. -/
theorem decides_waiting : ∃ d, Decides rt run around cancelAt id s d ∧
    (∀ d', Decides rt run around cancelAt id s d' → d.instant ≤ d'.instant) ∧
    ∃ waits, (waits = [(s, .wait id)] ∨ waits = [] ∧ d.instant = s) ∧
      waiting rt run around cancelAt id s = (concluding rt id d).behind waits := by
  obtain ⟨d, decides, instant, eq⟩ := @decides_waited rt run around cancelAt id s _ _
    (due_ending (waitFor rt run around cancelAt s) around.looksFirst)
  refine ⟨d, decides, fun d' decides' => instant ▸ decides'.instant_le, ?_⟩
  unfold waiting
  dsimp only
  rw [← waitFor, eq]
  cases asked : (waitFor rt run around cancelAt s).isAsked around.looksFirst with
  | true => exact ⟨_, .inl rfl, rfl⟩
  | false => exact ⟨[], .inr ⟨rfl, instant.trans (instant_of_not_isAsked asked)⟩, rfl⟩

theorem Decides.unique (untied : Untied rt run around cancelAt s) {d d' : Decision}
    (decides : Decides rt run around cancelAt id s d)
    (decides' : Decides rt run around cancelAt id s d') (same : d.instant = d'.instant) :
    d = d' := by
  obtain ⟨limited, goesOn, apart, cancel⟩ := untied
  have exit {c : Nat} (h : cancelAt = some c) : max s c ≠ s + rt.wait.after := by
    have := cancel c h
    omega
  have limit {c : Nat} (h : cancelAt = some c) : max s c ≠ s + around.clock run.timeLimit := by
    have := cancel c h
    omega
  have own : s + rt.wait.after ≠ s + around.clock run.timeLimit := by omega
  cases decides with
  | exited exits =>
    cases decides' with
    | exited => rfl
    | lost fails => rw [exits] at fails; cases fails
    | cancelled h => exact absurd same.symm (exit h)
    | timedOut => exact absurd same own
  | lost fails =>
    cases decides' with
    | exited exits => rw [exits] at fails; cases fails
    | lost fails' => rw [fails] at fails'; cases fails'; rfl
    | cancelled h => exact absurd same.symm (exit h)
    | timedOut => exact absurd same own
  | cancelled h =>
    cases decides' with
    | exited | lost => exact absurd same (exit h)
    | cancelled h' => rw [h] at h'; cases h'; rfl
    | timedOut => exact absurd same (limit h)
  | timedOut =>
    cases decides' with
    | exited | lost => exact absurd same.symm own
    | cancelled h => exact absurd same.symm (limit h)
    | timedOut => rfl

/-- A cancellation that comes later than another end of the wait does not bear on it. -/
theorem waiting_of_late (late : s + min rt.wait.after (around.clock run.timeLimit) < t) :
    waiting rt run around (some t) id s = waiting rt run around none id s := by
  have instant : (waitFor rt run around (some t) s).instant =
      (waitFor rt run around none s).instant := by
    simp only [waitFor, Wait.instant, Wait.due, Option.map_some, Option.map_none, Option.elim]
    omega
  have due (e : WaitEnd) : ((waitFor rt run around (some t) s).due e).any
      (· ≤ (waitFor rt run around (some t) s).instant) =
      ((waitFor rt run around none s).due e).any
        (· ≤ (waitFor rt run around none s).instant) := by
    rw [instant]
    cases e with
    | returned | timedOut => rfl
    | cancelled =>
      simp only [waitFor, Wait.instant, Wait.due, Option.map_some, Option.map_none, Option.elim,
        Option.any_some, Option.any_none]
      exact decide_eq_false (by omega)
  have ending : (waitFor rt run around (some t) s).ending around.looksFirst =
      (waitFor rt run around none s).ending around.looksFirst := by
    simp only [Wait.ending, due]
  have asked : (waitFor rt run around (some t) s).isAsked around.looksFirst =
      (waitFor rt run around none s).isAsked around.looksFirst := by
    simp only [Wait.isAsked, instant, ending]
    rfl
  unfold waiting
  dsimp only
  rw [← waitFor, ← waitFor, asked, instant, ending]

/-! ## The phases of a run -/

/-- A run that has not been cancelled when its pulls have ended well goes on to make a container. -/
theorem follow_of_makes (makes : Makes host rt around cancelAt) :
    follow host rt run around cancelAt =
      (creating host rt run around cancelAt (readyAt host rt around)).behind
        (pullCalls run (pullStarts host rt around)) := by
  obtain ⟨pulled, kept⟩ := makes
  unfold follow readyAt pullStarts at *
  cases registry : host.pulls with
  | none => rfl
  | some retryer =>
    simp only [registry, Option.elim] at kept ⊢
    unfold pulling
    dsimp only
    rw [filter_isCancelled, kept, pulled retryer registry]
    rfl

theorem creating_of_kept (kept : around.isCancelled cancelAt t = false) {e : ContainerError}
    (fails : rt.create.outcome = .error e) :
    creating host rt run around cancelAt t =
      ⟨[(t, creation host run)], t + rt.create.after, some (.error (.create run.checkId e))⟩ := by
  unfold creating
  simp only [kept, Bool.false_eq_true, if_false, fails]
  rfl

theorem creating_of_made (kept : around.isCancelled cancelAt t = false)
    (made : rt.create.outcome = .ok id) :
    creating host rt run around cancelAt t =
      (starting rt run around cancelAt id (t + rt.create.after)).after t (creation host run) := by
  unfold creating
  simp only [kept, Bool.false_eq_true, if_false, made]
  rfl

theorem starting_of_error {e : ContainerError} (fails : rt.start.outcome = .error e) :
    starting rt run around cancelAt id t =
      ⟨[(t, .start id), (t + rt.start.after, .remove id true)],
        t + rt.start.after + rt.remove.after, some (.error (.start run.checkId e))⟩ := by
  unfold starting
  simp only [fails]
  rfl

theorem starting_of_ok (started : rt.start.outcome = .ok ()) :
    starting rt run around cancelAt id t =
      (waiting rt run around cancelAt id (t + rt.start.after)).after t (.start id) := by
  unfold starting
  simp only [started]

theorem follow_of_starts (starts : Starts host rt around cancelAt id) :
    follow host rt run around cancelAt =
      (waiting rt run around cancelAt id (startedAt host rt around)).behind
        (launching host rt run around id) := by
  rw [follow_of_makes starts.toMakes, creating_of_made starts.kept starts.made,
    starting_of_ok starts.started]
  simp only [behind, after, launching, making, startedAt, List.append_assoc, List.cons_append,
    List.nil_append]

theorem concludes_of_starts (starts : Starts host rt around cancelAt id) :
    ∃ d, Decides rt run around cancelAt id (startedAt host rt around) d ∧
      (∀ d', Decides rt run around cancelAt id (startedAt host rt around) d' →
        d.instant ≤ d'.instant) ∧
      Concludes host rt run around id d (follow host rt run around cancelAt) := by
  obtain ⟨d, decides, earliest, waits, asked, eq⟩ :=
    @decides_waiting rt run around cancelAt id (startedAt host rt around)
  refine ⟨d, decides, earliest, waits, asked, ?_⟩
  rw [follow_of_starts starts, eq]
  simp only [behind, List.append_assoc]

theorem follow_of_withdrawn
    (cancelled : around.isCancelled (some t) (readyAt host rt around) = true) :
    follow host rt run around (some t) =
      ⟨pullCalls run ((pullStarts host rt around).filter (around.beginsBefore t)), t,
        some (.error (.cancelled run.checkId))⟩ := by
  unfold follow readyAt pullStarts at *
  cases registry : host.pulls with
  | none =>
    simp only [registry, Option.elim] at cancelled ⊢
    obtain rfl : t = 0 := by
      unfold Circumstances.isCancelled at cancelled
      split at cancelled <;> simp at cancelled
      exact cancelled
    unfold creating
    simp only [cancelled, if_true]
    rfl
  | some retryer =>
    simp only [registry, Option.elim] at cancelled ⊢
    unfold pulling
    dsimp only
    rw [filter_isCancelled, cancelled]
    rfl

theorem follow_of_unpulled {retryer : Retryer} {e : ContainerError}
    (registry : host.pulls = some retryer)
    (failed : (pulls rt around retryer).ending = .failed e)
    (kept : around.isCancelled cancelAt (readyAt host rt around) = false) :
    follow host rt run around cancelAt =
      ⟨pullCalls run (pullStarts host rt around), readyAt host rt around,
        some (.error (.pull run.checkId run.image e))⟩ := by
  unfold follow readyAt pullStarts at *
  simp only [registry, Option.elim] at kept ⊢
  unfold pulling
  dsimp only
  rw [filter_isCancelled, kept, failed]
  rfl

theorem last_pull_of_failed {retryer : Retryer} {e : ContainerError}
    (failed : (pulls rt around retryer).ending = .failed e) :
    ∃ k, (pulls rt around retryer).starts.length = k + 1 ∧ (rt.pull k).outcome = .error e := by
  obtain ⟨k, length, ends⟩ := (runs_pulls rt around retryer).ends
  rw [failed] at ends
  cases ends with
  | failed fails => exact ⟨k, length, fails⟩
  | cut _ _ cancelled => cases cancelled

/-- **The outcome of a run.** A run takes the course that the times of its phases, of its
cancellation and of its time limit determine. -/
theorem outcome (host : ContainerHost) (rt : Runtime) (run : RunSpec) (around : Circumstances)
    (cancelAt : Option Nat)
    (computes : ∀ retryer, host.pulls = some retryer → retryer.Computes around.chance) :
    Outcome host rt run around cancelAt (follow host rt run around cancelAt) where
  withdrawn t cancel cancelled := by
    subst cancel
    rw [follow_of_withdrawn cancelled]
    refine ⟨rfl, rfl, rfl, ?_, ?_⟩
    · rw [word, word_pullCalls]
      intro mem
      cases of_mem_pullWord mem
    · intro call mem
      obtain ⟨s, hs, rfl⟩ := List.mem_map.mp mem
      have before := (List.mem_filter.mp hs).2
      unfold Circumstances.beginsBefore at before
      split at before <;> simp at before <;> omega
  pulled retryer registry := by
    cases ending : (pulls rt around retryer).ending with
    | done => exact .inl rfl
    | failed e => exact .inr ⟨e, rfl⟩
    | fault why => exact absurd ending (Retryer.ending_ne_fault (computes retryer registry))
  unpulled retryer e registry failed kept := by
    refine ⟨?_, follow_of_unpulled registry failed kept⟩
    simpa [pullStarts, registry] using last_pull_of_failed failed
  unmade e makes fails := by
    rw [follow_of_makes makes, creating_of_kept makes.kept fails]
    rfl
  unstarted id e makes made fails := by
    rw [follow_of_makes makes, creating_of_made makes.kept made, starting_of_error fails]
    simp only [behind, after, launching, making, startedAt, List.append_assoc, List.cons_append,
      List.nil_append]
  decided id starts := concludes_of_starts starts
  determined id d starts untied decides earliest := by
    obtain ⟨d', decides', earliest', concludes⟩ :=
      @concludes_of_starts host rt run around cancelAt id starts
    obtain rfl : d = d' := decides.unique untied decides'
      (Nat.le_antisymm (earliest d' decides') (earliest' d decides))
    exact concludes
  late id t starts cancel late := by
    subst cancel
    have undisturbed : Starts host rt around none id :=
      ⟨⟨starts.pulled, rfl⟩, starts.made, starts.started⟩
    rw [follow_of_starts starts, follow_of_starts undisturbed, waiting_of_late late]

/-- A container that started at 140 ms is stopped at 500 ms, at which the run is cancelled. -/
theorem stopped_when_cancelled :
    Outcome patientHost stubborn anyRun .plain (some 500)
      (follow patientHost stubborn anyRun .plain (some 500)) ∧
    startedAt patientHost stubborn .plain = 140 ∧
    (follow patientHost stubborn anyRun .plain (some 500)).calls.drop 4 =
      [(140, .wait "id"), (500, .stop "id" grace), (510, .remove "id" true)] := by
  have course := outcome patientHost stubborn anyRun .plain (some 500) computes_patientHost
  exact ⟨course, by decide +kernel, by decide +kernel⟩

end ContainerRun

end CheckAgent
