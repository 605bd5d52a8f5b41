import CheckAgent.Agent.Startup
import CheckAgent.Proofs.Intake.Ending
import CheckAgent.Proofs.Retry.Delays
import CheckAgent.Proofs.Settings.Variables
import CheckAgent.Proofs.Slots.Draining

/-!
# What the settings may ask for

Settings are checked when they are read, and **used where the limits are narrower**. The number of
checks at a time and the seconds without messages are any numbers of 64 bits; but there cannot be
2⁶¹ slots, and the clock ends after 2⁶³ seconds.

**Main result** (`accepted_limits`). Settings that are accepted give slots exactly if they ask for
fewer than 2⁶¹. A reader that was active at a time has a deadline exactly if that lies before the
end of the clock; so a tracker does not break before the clock is as near to its end as the seconds
without messages, and it breaks at once if these alone reach beyond the end.

Both limits are passed by settings that are accepted (`accepted_beyond_limits`). Delays are
different: those of every retryer of an agent that is ready can be computed, whatever interval and
jitter the settings ask for (`ReadyAgent.computes`).
-/

namespace CheckAgent

namespace Settings

variable {vars : Vars} {s : Settings}

/-! ## Numbers of some bits -/

theorem number_lt {key : String} {bits default n : Nat} (fits : default < Nat.pow 2 bits)
    (reads : number vars key bits default = .ok n) : n < Nat.pow 2 bits := by
  have gives := (parsed_eq_ok_iff (unsigned_eq_ok_iff bits)).mp reads
  cases said : value? vars key with
  | none =>
    rw [said] at gives
    cases gives
    exact fits
  | some raw =>
    rw [said] at gives
    exact gives.2

theorem concurrentJobsOf_lt {n : Nat} (reads : concurrentJobsOf vars = .ok n) :
    n < Nat.pow 2 64 := by
  obtain ⟨m, number, rest⟩ := bind_eq_ok_iff.mp reads
  split at rest
  · cases rest
  · cases rest
    exact number_lt (by decide) number

theorem read_of_accepted (accepted : ofVars vars = .ok s) :
    concurrentJobsOf vars = .ok s.concurrentJobs ∧
      ∃ n, number vars "AGENT_MAX_NO_MSGS_INTERVAL_SECS" 64 180 = .ok n ∧
        s.maxNoMessages = .ofSeconds n := by
  obtain ⟨reads, -⟩ := reads_of_accepted accepted
  simp only [readingOrder, List.forall_mem_cons] at reads
  obtain ⟨jobs, -, silence, -⟩ := reads
  obtain ⟨n, number, same⟩ := map_eq_ok_iff.mp silence
  exact ⟨jobs, n, number, same.symm⟩

/-- Which settings the agent can work with, of those that it accepts. -/
structure Limits (s : Settings) : Prop where
  /-- The checks at a time are a number of 64 bits, and not zero. -/
  jobs : 0 < s.concurrentJobs ∧ s.concurrentJobs < Nat.pow 2 64
  /-- The time without messages is a number of seconds of 64 bits. -/
  silence : ∃ n, n < Nat.pow 2 64 ∧ s.maxNoMessages = .ofSeconds n
  /-- The slots for the checks can be made if there are not too many. -/
  slots_iff : s.slots = .ok (.ofCapacity s.concurrentJobs) ↔ s.concurrentJobs < Nat.pow 2 61
  /-- Otherwise the agent breaks when it makes them. -/
  too_many : Nat.pow 2 61 ≤ s.concurrentJobs → s.slots = .error Slots.capacityFault
  /-- A reader has a deadline if that lies before the end of the clock. -/
  deadline_iff : ∀ a : Activity, a.hasDeadline s.maxNoMessages = true ↔
    a.last / 1000 + s.maxNoMessages.seconds < Nat.pow 2 63
  /-- A tracker does not break while the clock has the time without messages before it. -/
  unbroken : ∀ events t, t / 1000 + s.maxNoMessages.seconds < Nat.pow 2 63 →
    Tracker.follow s.maxNoMessages events ≠ some (t, .broken)
  /-- It breaks at once if the clock never has that. -/
  breaks : Nat.pow 2 63 ≤ s.maxNoMessages.seconds → ∀ events : List (Nat × TrackerEvent),
    (∀ e ∈ events, 0 < e.1) → Tracker.follow s.maxNoMessages events = some (0, .broken)

/-! ## The clock -/

theorem two_pow_63 : Nat.pow 2 63 = 9223372036854775808 := by decide

theorem seconds_ofSeconds (n : Nat) : (Span.ofSeconds n).seconds = n :=
  Nat.mul_div_cancel n (by decide)

theorem shown_iff (t n : Nat) :
    (Span.ofMillis t).nanos + (Span.ofSeconds n).nanos < clockSeconds * 1000000000 ↔
      t / 1000 + n < Nat.pow 2 63 := by
  have clock : clockSeconds = Nat.pow 2 63 := rfl
  rw [clock]
  generalize Nat.pow 2 63 = limit
  simp only [Span.ofMillis, Span.ofSeconds]
  omega

theorem hasDeadline_iff (a : Activity) (n : Nat) :
    a.hasDeadline (.ofSeconds n) = true ↔ a.last / 1000 + n < Nat.pow 2 63 := by
  rw [← shown_iff]
  exact decide_eq_true_iff

/-- A tracker of a reader without any deadline breaks before anything happens. -/
theorem follow_broken_of_hidden {maxIdle : Span} {events : List (Nat × TrackerEvent)}
    (hidden : Activity.hasDeadline (.touched 0) maxIdle = false)
    (later : ∀ e ∈ events, 0 < e.1) : Tracker.follow maxIdle events = some (0, .broken) := by
  have none : (Tracker.inOrder events).filter (·.1 ≤ 0) = [] := by
    refine List.filter_eq_nil_iff.mpr fun e mem => ?_
    have := later e (Tracker.mem_inOrder.mp mem)
    simp only [decide_eq_true_eq]
    omega
  have knows : Tracker.known events 0 = .start := by
    unfold Tracker.known Tracker.upTo
    rw [none]
    rfl
  refine Tracker.follow_broken_iff.mpr
    ⟨⟨?_, fun t _ => Nat.zero_le t⟩, ?_, fun t mem => later _ mem⟩
  · show (Tracker.known events 0).LosesDeadline maxIdle
    rw [knows]
    exact ⟨rfl, rfl, hidden⟩
  · exact fun t lt => absurd lt (Nat.not_lt_zero t)

/-! ## The limits -/

theorem slots_of_lt (fits : s.concurrentJobs < Nat.pow 2 61) :
    s.slots = .ok (.ofCapacity s.concurrentJobs) :=
  if_pos (Nat.le_sub_one_of_lt fits)

theorem slots_of_le (many : Nat.pow 2 61 ≤ s.concurrentJobs) :
    s.slots = .error Slots.capacityFault := by
  refine if_neg fun fits => ?_
  have lt : s.concurrentJobs < Nat.pow 2 61 := Nat.lt_of_le_sub_one (by decide) fits
  omega

/-- **What can be done with settings that are accepted.** -/
theorem accepted_limits (accepted : ofVars vars = .ok s) : Limits s := by
  obtain ⟨jobs_read, n, silence_read, silence⟩ := read_of_accepted accepted
  have short : n < Nat.pow 2 64 := number_lt (by decide) silence_read
  have deadline_iff (a : Activity) : a.hasDeadline s.maxNoMessages = true ↔
      a.last / 1000 + s.maxNoMessages.seconds < Nat.pow 2 63 := by
    rw [silence, seconds_ofSeconds]
    exact hasDeadline_iff a n
  refine {
    jobs := ⟨concurrentJobsOf_pos jobs_read, concurrentJobsOf_lt jobs_read⟩
    silence := ⟨n, short, silence⟩
    slots_iff := ⟨fun made => ?slots_iff, slots_of_lt⟩
    too_many := slots_of_le
    deadline_iff := deadline_iff
    unbroken := fun events t ahead broken => ?unbroken
    breaks := fun behind events later => ?breaks }
  case slots_iff =>
    refine Nat.lt_of_not_le fun many => ?_
    rw [slots_of_le many] at made
    cases made
  case unbroken =>
    have ends := Tracker.clock_ends_of_lost (Tracker.follow_broken_iff.mp broken).1.1
    rw [silence, seconds_ofSeconds, ← shown_iff, ← silence] at ahead
    omega
  case breaks =>
    refine follow_broken_of_hidden (Bool.eq_false_iff.mpr fun shown => ?_) later
    have := (deadline_iff _).mp shown
    omega

/-- An agent that is told only its services has its ten slots, and its tracker does not break in the
first thousand years. -/
theorem limits_of_services : ∃ s, ofVars Budget.services = .ok s ∧
    s.slots = .ok (.ofCapacity 10) ∧
    (∀ events t, t ≤ 31557600000000 → Tracker.follow s.maxNoMessages events ≠ some (t, .broken)) ∧
    Limits s := by
  have read : (ofVars Budget.services).toOption.map (fun s => (s.concurrentJobs, s.maxNoMessages)) =
      some (10, .ofSeconds 180) := by decide +kernel
  obtain ⟨s, accepted, same⟩ := Budget.exists_settings read
  obtain ⟨jobs, silence⟩ := Prod.ext_iff.mp same
  dsimp only at jobs silence
  have limits := accepted_limits accepted
  refine ⟨s, accepted, ?_, fun events t early => limits.unbroken events t ?_, limits⟩
  · rw [limits.slots_iff.mpr (by rw [jobs]; decide), jobs]
  · rw [silence, seconds_ofSeconds, two_pow_63]
    omega

/-- Settings are accepted that ask for 2⁶¹ slots and for the longest time without messages: there
are no such slots, no reader has a deadline, and a tracker breaks at once. -/
theorem accepted_beyond_limits : ∃ s,
    ofVars ([("AGENT_CONCURRENT_JOBS", "2305843009213693952"),
      ("AGENT_MAX_NO_MSGS_INTERVAL_SECS", "18446744073709551615")] ++ Budget.services) = .ok s ∧
    s.slots = .error Slots.capacityFault ∧
    (∀ a : Activity, a.hasDeadline s.maxNoMessages = false) ∧
    Tracker.follow s.maxNoMessages [] = some (0, .broken) := by
  have read : (ofVars ([("AGENT_CONCURRENT_JOBS", "2305843009213693952"),
      ("AGENT_MAX_NO_MSGS_INTERVAL_SECS", "18446744073709551615")] ++ Budget.services)).toOption.map
        (fun s => (s.concurrentJobs, s.maxNoMessages)) =
      some (Nat.pow 2 61, .ofSeconds 18446744073709551615) := by decide +kernel
  obtain ⟨s, accepted, same⟩ := Budget.exists_settings read
  obtain ⟨jobs, silence⟩ := Prod.ext_iff.mp same
  dsimp only at jobs silence
  have hidden (a : Activity) : a.hasDeadline s.maxNoMessages = false := by
    refine Bool.eq_false_iff.mpr fun shown => ?_
    rw [silence, hasDeadline_iff, two_pow_63] at shown
    omega
  exact ⟨s, accepted, slots_of_le (Nat.le_of_eq jobs.symm), hidden,
    follow_broken_of_hidden (hidden _) (List.forall_mem_nil _)⟩

/-! ## Delays -/

theorem isNan_registryJitter (accepted : ofVars vars = .ok s) :
    s.registryJitter.isNan = false := by
  have means := (ofVars_eq_ok_iff.mp accepted).1 .jitter (by simp [readingOrder])
  have number : InUnit s.registryJitter := by
    change Gives Policy.defaultJitter _ (value? vars Variable.jitter.key) s.registryJitter at means
    cases said : value? vars Variable.jitter.key with
    | none =>
      rw [said] at means
      exact means ▸ defaultJitter_inUnit
    | some raw =>
      rw [said] at means
      exact means.2
  obtain ⟨x, is, -⟩ := number
  exact Number.Binary.isNan_of_value? is

end Settings

namespace ReadyAgent

variable {m : Machine} {vars : Vars} {agent : ReadyAgent} {chance : Nat → Chance}

theorem retryers_of_settings {engineHost : Option String} {s : Settings}
    (ready : ofSettings m engineHost s = .ok agent) :
    (∀ retryer, agent.host.pulls = some retryer → retryer = s.pullRetryer) ∧
      agent.reporter.retryer = s.retryer ∧
      ∀ list, agent.abortList = some list → list.retryer = s.retryer := by
  obtain ⟨address, -, ready⟩ := bind_eq_ok_iff.mp ready
  obtain ⟨-, -, ready⟩ := bind_eq_ok_iff.mp ready
  obtain ⟨list, fetched, ready⟩ := bind_eq_ok_iff.mp ready
  split at ready
  · cases ready
  · cases ready
    refine ⟨fun retryer pulls => ?_, rfl, fun list' there => ?_⟩
    · obtain ⟨_, -, same⟩ := Option.map_eq_some_iff.mp pulls
      exact same.symm
    · obtain rfl : list = some list' := there
      rw [mapError_eq_ok_iff] at fetched
      unfold Settings.abortList? at fetched
      split at fetched
      · cases fetched
      · obtain ⟨list, read, same⟩ := map_eq_ok_iff.mp fetched
        obtain rfl := Option.some.inj same
        unfold AbortList.ofAddress at read
        split at read <;> cases read
        rfl

theorem exists_settings (ready : (Startup.ofVars m vars).agent? = some agent) :
    ∃ s, Settings.ofVars vars = .ok s ∧
      ofSettings m (vars.get? engineHostVar) s = .ok agent := by
  unfold Startup.ofVars at ready
  cases accepted : Settings.ofVars vars with
  | error e =>
    rw [accepted] at ready
    cases ready
  | ok s =>
    rw [accepted] at ready
    dsimp only at ready
    cases built : ofSettings m (vars.get? engineHostVar) s with
    | error e =>
      rw [built] at ready
      cases ready
    | ok agent' =>
      rw [built] at ready
      cases ready
      exact ⟨s, rfl, built⟩

/-- **The delays of an agent that is ready can be computed**, whatever they are for. -/
theorem computes (ready : (Startup.ofVars m vars).agent? = some agent)
    (drawn : ∀ i, (chance i).offset.isSome = true) :
    (∀ retryer, agent.host.pulls = some retryer → retryer.Computes chance) ∧
      agent.reporter.retryer.Computes chance ∧
      ∀ list, agent.abortList = some list → list.retryer.Computes chance := by
  obtain ⟨s, accepted, built⟩ := exists_settings ready
  obtain ⟨pulls, reports, lists⟩ := retryers_of_settings built
  have doubled : s.retryer.Computes chance := Retryer.computes_doubling _ _ drawn
  refine ⟨fun retryer registry => ?_, reports ▸ doubled, fun list there => ?_⟩
  · rw [pulls retryer registry]
    exact Retryer.computes_withJitter _ _ _ (Settings.isNan_registryJitter accepted) drawn
  · exact lists list there ▸ doubled

end ReadyAgent

end CheckAgent
