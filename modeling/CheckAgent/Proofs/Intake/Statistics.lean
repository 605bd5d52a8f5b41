import CheckAgent.Proofs.Intake.Idleness
import CheckAgent.Runner.Serve

/-!
# The age of the last message

The statistics of the agent tell how many seconds it is since the last message. They take it from
the record of the reader's activity, which says **when the reader was last active**: when it read a
message, or when it got a slot after having had to wait for one (`Reads.last_eq`).

**Main result** (`stats_tell_age`). At every instant after a first message the statistics tell the
age of the last message, unless the reader has since waited for a slot and got it: then they tell
how long ago it last got one. So they never tell too much, and they tell the age exactly if every
slot that was waited for came within the same whole number of seconds.

That they may tell too little is no matter of rounding (`stats_forget_message`): a reader with one
slot that gets it back after a minute tells five seconds later that the last message is five seconds
old.
-/

namespace CheckAgent

/-- The reader gets a slot after having had to wait for one. -/
def ReaderMoment.resumes (m : ReaderMoment) : Bool :=
  m.before.blocked && m.after.phase = .receiving

theorem ReaderMoment.activates_eq (m : ReaderMoment) :
    m.activates = (m.event.message?.isSome || m.resumes) := rfl

/-- A request asks for the statistics. -/
structure ApiRequest.AsksStats (q : ApiRequest) : Prop where
  method : q.method = "GET"
  path : Api.pathOf q.target.toList = "/stats".toList

namespace Reads

variable {capacity : Nat} {log : List ReaderMoment} {r : Reader} {t : Nat}

/-- The seconds that the statistics tell at an instant. -/
def toldAt (capacity : Nat) (log : List ReaderMoment) (t : Nat) : Nat :=
  (readerAfter capacity (past log t)).activity.secondsSince t

/-- The whole seconds since a moment. -/
def age (t : Nat) (m : ReaderMoment) : Nat := (t - m.time) / 1000

/-- What the statistics tell at an instant of the last message `m`, behind which the moments `later`
have passed. -/
structure TellsAge (capacity : Nat) (log : List ReaderMoment) (t : Nat) (m : ReaderMoment)
    (later : List ReaderMoment) : Prop where
  /-- Whatever the runner does, this is the figure in the answer. -/
  answered : ∀ (runner : Runner) (n : Nat) (refusal : CheckState → Option ReportError)
    (q : ApiRequest), q.AsksStats →
      (runner.serve n (.ofAgent (readerAfter capacity (past log t)).slots
        (readerAfter capacity (past log t)).activity t refusal) q).answer =
          .stats runner.running capacity (toldAt capacity log t)
  /-- It is the age of the message if the reader has not got a slot by waiting. -/
  unwaited : (∀ l ∈ later, l.resumes = false) → toldAt capacity log t = age t m
  /-- Otherwise it is the time since the reader last got one. -/
  waited : ∀ until_ l since, later = until_ ++ l :: since → l.resumes = true →
    (∀ x ∈ since, x.resumes = false) → toldAt capacity log t = age t l
  /-- It is never more than the age of the message. -/
  at_most : toldAt capacity log t ≤ age t m
  /-- It is the age of the message if that of every slot is the same. -/
  exact_iff : toldAt capacity log t = age t m ↔
    ∀ l ∈ later, l.resumes = true → age t l = age t m

/-! ## What is read off the record -/

theorem capacity_eq (reads : Reads capacity log r) : r.slots.capacity = capacity := by
  induction reads with
  | start => rfl
  | next t event reads happens ih => exact (Reader.steps_of_step happens).capacity_eq.trans ih

theorem read_stats {q : ApiRequest} (asks : q.AsksStats) : Api.read q = .ok .stats := by
  have resource : Api.resource? "/stats".toList = some .stats := rfl
  unfold Api.read
  rw [asks.path, resource, asks.method]
  rfl

theorem serve_stats {q : ApiRequest} (asks : q.AsksStats) (runner : Runner) (n : Nat)
    (slots : Slots) (activity : Activity) (t : Nat)
    (refusal : CheckState → Option ReportError) :
    (runner.serve n (.ofAgent slots activity t refusal) q).answer =
      .stats runner.running slots.capacity (activity.secondsSince t) := by
  unfold Runner.serve
  rw [read_stats asks, asks.method]
  rfl

theorem lastActive_of_last {before later : List ReaderMoment} {m : ReaderMoment}
    (timely : (before ++ m :: later).Pairwise fun a b => a.time ≤ b.time)
    (active : m.activates = true) (quiet : ∀ l ∈ later, l.activates = false) :
    lastActive (before ++ m :: later) = m.time := by
  induction later using List.reverseRecOn with
  | nil =>
    obtain ⟨-, -, earlier⟩ := List.pairwise_append.mp timely
    have le : lastActive before ≤ m.time :=
      lastActive_le fun l mem => earlier l mem m (List.mem_singleton_self m)
    rw [lastActive_snoc, if_pos active, Nat.max_eq_right le]
  | append_singleton later l ih =>
    have split : before ++ m :: (later ++ [l]) = (before ++ m :: later) ++ [l] := by simp
    have still : ¬ l.activates = true := by simp [quiet l]
    rw [split] at timely ⊢
    rw [lastActive_snoc, if_neg still]
    exact ih (List.pairwise_append.mp timely).1 fun l mem => quiet l (List.mem_append_left _ mem)

theorem toldAt_of_last (reads : Reads capacity log r)
    (timely : log.Pairwise fun a b => a.time ≤ b.time) {before later : List ReaderMoment}
    {m : ReaderMoment} (parts : past log t = before ++ m :: later) (active : m.activates = true)
    (quiet : ∀ l ∈ later, l.activates = false) : toldAt capacity log t = age t m := by
  obtain ⟨r', reads'⟩ := reads.reads_past (t := t) timely
  have timely' := timely.filter (·.time ≤ t)
  have last : r'.activity.last = m.time := by
    rw [reads'.last_eq timely']
    rw [show log.filter (·.time ≤ t) = before ++ m :: later from parts] at timely'
    rw [parts, lastActive_of_last timely' active quiet]
  unfold toldAt Activity.secondsSince age
  rw [reads'.readerAfter_eq, last]

theorem last_or_none (p : ReaderMoment → Bool) (log : List ReaderMoment) :
    (∀ m ∈ log, p m = false) ∨ ∃ until_ m since, log = until_ ++ m :: since ∧ p m = true ∧
      ∀ l ∈ since, p l = false := by
  cases found : log.reverse.find? p with
  | none =>
    exact .inl fun m mem => by simpa using List.find?_eq_none.mp found m (List.mem_reverse.mpr mem)
  | some m =>
    obtain ⟨holds, since, until_, split, none⟩ := List.find?_eq_some_iff_append.mp found
    refine .inr ⟨until_.reverse, m, since.reverse, ?_, holds, fun l mem => ?_⟩
    · rw [← List.reverse_inj, split]
      simp
    · simpa using none l (List.mem_reverse.mp mem)

/-! ## The age of the message -/

/-- **What the statistics tell of the last message.** -/
theorem stats_tell_age (reads : Reads capacity log r)
    (timely : log.Pairwise fun a b => a.time ≤ b.time) {before later : List ReaderMoment}
    {m : ReaderMoment} (parts : past log t = before ++ m :: later)
    (message : m.event.message?.isSome = true)
    (last : ∀ l ∈ later, l.event.message? = none) : TellsAge capacity log t m later := by
  have timely' := timely.filter (·.time ≤ t)
  rw [show log.filter (·.time ≤ t) = before ++ m :: later from parts] at timely'
  obtain ⟨-, behind, -⟩ := List.pairwise_append.mp timely'
  obtain ⟨after_m, ordered⟩ := List.pairwise_cons.mp behind
  have quiet {l : ReaderMoment} (mem : l ∈ later) (stays : l.resumes = false) :
      l.activates = false := by
    rw [l.activates_eq, last l mem, stays]
    rfl
  have unwaited (none : ∀ l ∈ later, l.resumes = false) : toldAt capacity log t = age t m := by
    refine toldAt_of_last reads timely parts ?_ fun l mem => quiet mem (none l mem)
    rw [m.activates_eq, message]
    rfl
  have waited (until_ : List ReaderMoment) (l : ReaderMoment) (since : List ReaderMoment)
      (split : later = until_ ++ l :: since) (resumes : l.resumes = true)
      (none : ∀ x ∈ since, x.resumes = false) : toldAt capacity log t = age t l := by
    have parts' : past log t = (before ++ m :: until_) ++ l :: since := by
      rw [parts, split]
      simp
    refine toldAt_of_last reads timely parts' ?_ fun x mem => quiet ?_ (none x mem)
    · rw [l.activates_eq, resumes, Bool.or_true]
    · rw [split]
      simp [mem]
  have younger {a b : ReaderMoment} (le : a.time ≤ b.time) : age t b ≤ age t a :=
    Nat.div_le_div_right (Nat.sub_le_sub_left le t)
  refine {
    answered := fun runner n refusal q asks => ?answered
    unwaited := unwaited
    waited := waited
    at_most := ?at_most
    exact_iff := ?exact_iff }
  case answered =>
    obtain ⟨r', reads'⟩ := reads.reads_past (t := t) timely
    unfold toldAt
    rw [reads'.readerAfter_eq, serve_stats asks, reads'.capacity_eq]
  case at_most =>
    rcases last_or_none (·.resumes) later with none | ⟨until_, l, since, split, resumes, none⟩
    · exact (unwaited none).le
    · rw [waited until_ l since split resumes none]
      exact younger (after_m l (by simp [split]))
  case exact_iff =>
    rcases last_or_none (·.resumes) later with none | ⟨until_, l, since, split, resumes, none⟩
    · refine iff_of_true (unwaited none) fun l mem resumes => ?_
      rw [none l mem] at resumes
      cases resumes
    · rw [waited until_ l since split resumes none]
      have latest : ∀ x ∈ later, x.resumes = true → x.time ≤ l.time := by
        intro x mem again
        rw [split] at mem ordered
        rcases List.mem_append.mp mem with early | mem
        · exact (List.pairwise_append.mp ordered).2.2 x early l List.mem_cons_self
        · rcases List.mem_cons.mp mem with rfl | late
          · exact Nat.le_refl _
          · rw [none x late] at again
            cases again
      constructor
      · intro same x mem again
        refine Nat.le_antisymm (younger (after_m x mem)) ?_
        rw [← same]
        exact younger (latest x mem again)
      · exact fun same => same l (by simp [split]) resumes

/-- A reader with two slots has read two messages, and has got a slot for a third. A minute after
the second message the statistics tell sixty seconds. -/
theorem stats_tell_minute : ∃ log r before m, Reads 2 log r ∧
    (log.Pairwise fun a b => a.time ≤ b.time) ∧ past log 67000 = before ++ [m] ∧ m.time = 7000 ∧
      m.event.message?.isSome = true ∧ toldAt 2 log 67000 = 60 ∧ TellsAge 2 log 67000 m [] := by
  obtain ⟨log, r, before, m, reads, timely, parts, time, message⟩ : ∃ log r before m,
      Reads 2 log r ∧ (log.Pairwise fun a b => a.time ≤ b.time) ∧
        past log 67000 = before ++ [m] ∧ m.time = 7000 ∧ m.event.message?.isSome = true := by
    refine ⟨_, _, _, _, .next 70000 .seek (.next 7000 (.received (.message ⟨"b", "second"⟩))
      (.next 3000 .seek (.next 3000 (.received (.message ⟨"a", "first"⟩)) (.next 0 .seek .start
        rfl) rfl) rfl) rfl) rfl, ?_, (rfl : _ = [_, _, _] ++ [_]), ?_⟩
    · simp
    · exact ⟨rfl, rfl⟩
  have tells := stats_tell_age reads timely parts message (List.forall_mem_nil _)
  have told := tells.unwaited (List.forall_mem_nil _)
  rw [age, time] at told
  exact ⟨log, r, before, m, reads, timely, parts, time, message, told, tells⟩

/-- A reader with one slot reads a message and waits for the slot, which it gets back after a
minute. Five seconds later the message is 65 seconds old, and the statistics tell five. -/
theorem stats_forget_message : ∃ log r before m later, Reads 1 log r ∧
    (log.Pairwise fun a b => a.time ≤ b.time) ∧ past log 65000 = before ++ m :: later ∧
      m.event.message?.isSome = true ∧ (∀ l ∈ later, l.event.message? = none) ∧
      age 65000 m = 65 ∧
      ∀ (runner : Runner) (refusal : CheckState → Option ReportError) (q : ApiRequest),
        q.AsksStats → (runner.serve 0 (.ofAgent (readerAfter 1 (past log 65000)).slots
          (readerAfter 1 (past log 65000)).activity 65000 refusal) q).answer =
            .stats runner.running 1 5 := by
  refine ⟨_, _, _, _, _, .next 60000 (.processed 0 .keep) (.next 0 .seek
    (.next 0 (.received (.message ⟨"a", "text"⟩)) (.next 0 .seek .start rfl) rfl) rfl) rfl,
    ?_, (rfl : _ = [_] ++ _ :: _), rfl, ?_, rfl, fun runner refusal q asks => serve_stats asks ..⟩
  · simp
  · intro l mem
    simp at mem
    rcases mem with rfl | rfl <;> rfl

end Reads

end CheckAgent
