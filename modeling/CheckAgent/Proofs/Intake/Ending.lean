import CheckAgent.Proofs.Intake.Tracking

/-!
# An idle tracker and its reference

**The reference** says of each instant what the events up to it have made of the reader (`known`):
when it was last active, whether it waits for a slot, and whether it is there. An instant at which
the reader is there, does not wait and has reached its deadline is an idle one.

**Main result** (`follow_meets_reference`). A tracker ends at the first idle instant or at the first
cancellation, whichever comes first; of the two at one instant it is the cancellation. A reader that
ceases to wait behind its deadline is found idle at once, and one that is gone is never found idle:
from then on only a cancellation ends the tracker.

The reference has one more row. Where the clock cannot show the deadline of a reader that does not
wait, there is nothing to wait for, and the tracker breaks (`Tracker.LosesDeadline`). The clock
shows 2⁶³ seconds, so that only happens with spans that come near to them. A tracker whose deadlines
the clock shows never breaks, and its idle instants are those at or behind a deadline
(`follow_of_shown`).
-/

namespace CheckAgent.Tracker

variable {maxIdle : Span} {k : Tracker} {s t : Nat} {events : List (Nat × TrackerEvent)}

/-- Events in the order of their times; those of one instant stay in the order in which they are
given. -/
def inOrder (events : List (Nat × TrackerEvent)) : List (Nat × TrackerEvent) :=
  events.mergeSort fun a b => decide (a.1 ≤ b.1)

/-- What the events up to an instant have made of the reader. -/
def known (events : List (Nat × TrackerEvent)) (t : Nat) : Tracker := start.upTo (inOrder events) t

/-- The instant of the first cancellation. -/
def FirstCancel (events : List (Nat × TrackerEvent)) (t : Nat) : Prop :=
  IsLeast {t | (t, .cancel) ∈ events} t

/-- A tracker ends as the reference says. -/
structure MeetsReference (maxIdle : Span) (events : List (Nat × TrackerEvent)) : Prop where
  /-- It is cancelled at the first cancellation, if nothing has ended it before. -/
  cancelled_iff : ∀ t, follow maxIdle events = some (t, .cancelled) ↔ FirstCancel events t ∧
    ∀ s < t, ¬ (known events s).FindsIdle maxIdle s ∧ ¬ (known events s).LosesDeadline maxIdle
  /-- It finds the reader idle at the first idle instant, if it is not cancelled by then. -/
  idle_iff : ∀ t, follow maxIdle events = some (t, .idle) ↔
    IsLeast {t | (known events t).FindsIdle maxIdle t} t ∧ ∀ s, (s, .cancel) ∈ events → t < s
  /-- It breaks when it would first wait for a deadline that the clock cannot show. -/
  broken_iff : ∀ t, follow maxIdle events = some (t, .broken) ↔
    IsLeast {t | (known events t).LosesDeadline maxIdle} t ∧
      (∀ s < t, ¬ (known events s).FindsIdle maxIdle s) ∧ ∀ s, (s, .cancel) ∈ events → t < s
  /-- It does so only when the clock ends before the reader could be idle. -/
  lost_only : ∀ t, (known events t).LosesDeadline maxIdle →
    clockSeconds * 1000000000 ≤ (Span.ofMillis t).nanos + maxIdle.nanos
  /-- Otherwise it never ends. -/
  never_iff : follow maxIdle events = none ↔ ∀ t, (t, .cancel) ∉ events ∧
    ¬ (known events t).FindsIdle maxIdle t ∧ ¬ (known events t).LosesDeadline maxIdle
  /-- A reader that ceases to wait behind its deadline is found idle at once. -/
  unwaits : ∀ before t after, inOrder events = before ++ (t, .unwait) :: after →
    (∀ e ∈ after, t < e.1) → (t, .cancel) ∉ events → (start.observeAll before).gone = false →
    (start.observeAll before).activity.hasDeadline maxIdle = true →
    (start.observeAll before).activity.last + maxIdle.millisUp ≤ t →
    (∀ s < t, ∀ how, follow maxIdle events ≠ some (s, how)) →
      follow maxIdle events = some (t, .idle)
  /-- When the reader is gone, only a cancellation ends it. -/
  dropped : ∀ s, (s, .gone) ∈ events →
    (∀ t < s, ∀ how, follow maxIdle events ≠ some (t, how)) →
      ∀ t how, follow maxIdle events = some (t, how) ↔ how = .cancelled ∧ FirstCancel events t

/-! ## Events in their order -/

theorem sorted_inOrder (events : List (Nat × TrackerEvent)) :
    (inOrder events).Pairwise fun a b => a.1 ≤ b.1 := by
  have sorted : (inOrder events).Pairwise fun a b => decide (a.1 ≤ b.1) = true := by
    refine List.pairwise_mergeSort (fun a b c ab bc => ?_) (fun a b => ?_) events
    · exact decide_eq_true (Nat.le_trans (of_decide_eq_true ab) (of_decide_eq_true bc))
    · simpa using Nat.le_total a.1 b.1
  exact sorted.imp of_decide_eq_true

theorem mem_inOrder {e : Nat × TrackerEvent} : e ∈ inOrder events ↔ e ∈ events :=
  List.mem_mergeSort

theorem ended_follow (maxIdle : Span) (events : List (Nat × TrackerEvent)) :
    start.Ended maxIdle (inOrder events) 0 (follow maxIdle events) :=
  ended_followFrom (sorted_inOrder events) fun _ _ => Nat.zero_le _

theorem endsAt_iff : (∃ how, start.EndsAt maxIdle (inOrder events) t how) ↔
    (t, .cancel) ∈ events ∨ (known events t).FindsIdle maxIdle t ∨
      (known events t).LosesDeadline maxIdle := by
  constructor
  · intro ends
    obtain ⟨how, ends⟩ := ends
    cases ends with
    | cancelled asked => exact .inl (mem_inOrder.mp asked)
    | idle _ found => exact .inr (.inl found)
    | broken _ lost => exact .inr (.inr lost)
  · intro ends
    by_cases asked : (t, .cancel) ∈ inOrder events
    · exact ⟨_, .cancelled asked⟩
    · rcases ends with asked' | found | lost
      · exact absurd (mem_inOrder.mpr asked') asked
      · exact ⟨_, .idle asked found⟩
      · exact ⟨_, .broken asked lost⟩

/-- **The end of a tracker** is the first instant at which something ends it. -/
theorem follow_eq_some_iff {how : IdleEnd} : follow maxIdle events = some (t, how) ↔
    start.EndsAt maxIdle (inOrder events) t how ∧
      ∀ t', (t', .cancel) ∈ events ∨ (known events t').FindsIdle maxIdle t' ∨
        (known events t').LosesDeadline maxIdle → t ≤ t' := by
  rw [(ended_follow maxIdle events).eq_some_iff]
  constructor
  · intro ends
    obtain ⟨-, ends, first⟩ := ends
    refine ⟨ends, fun t' ends' => ?_⟩
    obtain ⟨how', ends'⟩ := endsAt_iff.mpr ends'
    exact first t' how' (Nat.zero_le _) ends'
  · intro ends
    obtain ⟨ends, first⟩ := ends
    exact ⟨Nat.zero_le _, ends, fun t' how' _ ends' => first t' (endsAt_iff.mp ⟨how', ends'⟩)⟩

/-- A tracker that has not ended before an instant ends by what ends it then. -/
theorem follow_of_endsAt {how : IdleEnd} (ends : start.EndsAt maxIdle (inOrder events) t how)
    (still : ∀ s < t, ∀ how, follow maxIdle events ≠ some (s, how)) :
    follow maxIdle events = some (t, how) := by
  have ended := ended_follow maxIdle events
  generalize follow maxIdle events = end? at ended still
  cases ended with
  | never never => exact absurd ends (never t how (Nat.zero_le _))
  | @first d how' _ ends' first =>
    have le := first t how (Nat.zero_le _) ends
    have same : d = t := Nat.le_antisymm le (Nat.le_of_not_lt fun lt => still d lt how' rfl)
    subst same
    rw [ends.unique ends']

theorem not_endsAt_of_lt {how : IdleEnd}
    (still : ∀ s < t, ∀ how, follow maxIdle events ≠ some (s, how)) (lt : s < t) :
    ¬ start.EndsAt maxIdle (inOrder events) s how := by
  intro ends
  exact still s lt how (follow_of_endsAt ends fun s' lt' => still s' (lt'.trans lt))

/-! ## The clock -/

theorem last_observe_le (past : k.activity.last ≤ t) (event : TrackerEvent) (le : s ≤ t) :
    (k.observe s event).activity.last ≤ t := by
  unfold observe
  split
  · exact past
  · cases event with
    | touch => exact le
    | wait | unwait | gone | cancel => exact past

theorem last_observeAll_le (past : k.activity.last ≤ t) (early : ∀ e ∈ events, e.1 ≤ t) :
    (k.observeAll events).activity.last ≤ t := by
  induction events generalizing k with
  | nil => exact past
  | cons e rest ih =>
    have step := last_observe_le past e.2 (early e (List.mem_cons_self ..))
    exact ih step fun e' mem => early e' (List.mem_cons_of_mem e mem)

theorem last_known_le (events : List (Nat × TrackerEvent)) (t : Nat) :
    (known events t).activity.last ≤ t :=
  last_observeAll_le (Nat.zero_le t) fun _ mem => of_decide_eq_true (List.mem_filter.mp mem).2

/-- A deadline is lost only where the clock ends before the reader could be idle. -/
theorem clock_ends_of_lost (lost : (known events t).LosesDeadline maxIdle) :
    clockSeconds * 1000000000 ≤ (Span.ofMillis t).nanos + maxIdle.nanos := by
  have hidden : clockSeconds * 1000000000 ≤
      (Span.ofMillis (known events t).activity.last).nanos + maxIdle.nanos :=
    Nat.le_of_not_lt (of_decide_eq_false lost.2.2)
  exact hidden.trans (Activity.nanos_mono (last_known_le events t))

/-! ## The reader goes -/

theorem gone_observe (event : TrackerEvent) (gone : k.gone = true) :
    (k.observe t event).gone = true := by
  unfold observe
  rw [if_pos gone]
  exact gone

theorem gone_observe_gone (k : Tracker) (t : Nat) : (k.observe t .gone).gone = true := by
  unfold observe
  split
  · next gone => exact gone
  · rfl

theorem gone_observeAll (events : List (Nat × TrackerEvent)) (gone : k.gone = true) :
    (k.observeAll events).gone = true := by
  induction events generalizing k with
  | nil => exact gone
  | cons e rest ih => exact ih (gone_observe e.2 gone)

theorem gone_of_mem (mem : (s, .gone) ∈ events) : (k.observeAll events).gone = true := by
  induction events generalizing k with
  | nil => cases mem
  | cons e rest ih =>
    rcases List.mem_cons.mp mem with rfl | mem
    · exact gone_observeAll rest (gone_observe_gone k s)
    · exact ih mem

theorem gone_known (mem : (s, .gone) ∈ events) (le : s ≤ t) : (known events t).gone = true :=
  gone_of_mem (List.mem_filter.mpr ⟨mem_inOrder.mpr mem, decide_eq_true le⟩)

/-- Nothing but a cancellation ends the tracker of a reader that is gone. -/
theorem EndsAt.cancelled_of_gone {how : IdleEnd}
    (ends : start.EndsAt maxIdle (inOrder events) t how) (gone : (known events t).gone = true) :
    how = .cancelled ∧ (t, .cancel) ∈ events := by
  cases ends with
  | cancelled asked => exact ⟨rfl, mem_inOrder.mp asked⟩
  | idle _ found => cases gone.symm.trans found.1
  | broken _ lost => cases gone.symm.trans lost.1

/-! ## The last event of an instant -/

/-- After the last event of an instant it is known what was known before it and what it tells. -/
theorem known_of_split {before after : List (Nat × TrackerEvent)} {event : TrackerEvent}
    (eq : inOrder events = before ++ (t, event) :: after) (last : ∀ e ∈ after, t < e.1) :
    known events t = (start.observeAll before).observe t event := by
  have sorted := sorted_inOrder events
  rw [eq] at sorted
  have early (e : Nat × TrackerEvent) (mem : e ∈ before) : e.1 ≤ t :=
    (List.pairwise_append.mp sorted).2.2 e mem _ (List.mem_cons_self ..)
  have kept : before.filter (·.1 ≤ t) = before :=
    List.filter_eq_self.mpr fun e mem => decide_eq_true (early e mem)
  have dropped : after.filter (·.1 ≤ t) = [] :=
    List.filter_eq_nil_iff.mpr fun e mem => by simpa using last e mem
  rw [known, upTo, eq, List.filter_append, kept, List.filter_cons_of_pos (by simp), dropped,
    observeAll_append]
  rfl

/-! ## Ways to end -/

theorem follow_cancelled_iff : follow maxIdle events = some (t, .cancelled) ↔
    FirstCancel events t ∧ ∀ s < t,
      ¬ (known events s).FindsIdle maxIdle s ∧ ¬ (known events s).LosesDeadline maxIdle := by
  rw [follow_eq_some_iff]
  constructor
  · intro ends
    obtain ⟨ends, first⟩ := ends
    cases ends with
    | cancelled asked =>
      refine ⟨⟨mem_inOrder.mp asked, fun t' asked' => first t' (.inl asked')⟩, fun s lt => ?_⟩
      have later : ¬ t ≤ s := Nat.not_le_of_lt lt
      exact ⟨fun found => later (first s (.inr (.inl found))),
        fun lost => later (first s (.inr (.inr lost)))⟩
  · intro ends
    obtain ⟨⟨asked, first⟩, quiet⟩ := ends
    refine ⟨.cancelled (mem_inOrder.mpr asked), fun t' ends' => ?_⟩
    rcases ends' with asked' | found | lost
    · exact first asked'
    · exact Nat.le_of_not_lt fun lt => (quiet t' lt).1 found
    · exact Nat.le_of_not_lt fun lt => (quiet t' lt).2 lost

theorem follow_first_idle_iff : follow maxIdle events = some (t, .idle) ↔
    IsLeast {t | (known events t).FindsIdle maxIdle t} t ∧
      ∀ s, (s, .cancel) ∈ events → t < s := by
  have iff : follow maxIdle events = some (t, .idle) ↔
      IsLeast {t | 0 ≤ t ∧ (known events t).FindsIdle maxIdle t} t ∧
        ∀ s, (s, .cancel) ∈ inOrder events → t < s :=
    followFrom_idle_iff (sorted_inOrder events) (fun _ _ => Nat.zero_le _) (Nat.le_refl 0)
  simpa only [Nat.zero_le, true_and, mem_inOrder] using iff

theorem follow_broken_iff : follow maxIdle events = some (t, .broken) ↔
    IsLeast {t | (known events t).LosesDeadline maxIdle} t ∧
      (∀ s < t, ¬ (known events s).FindsIdle maxIdle s) ∧ ∀ s, (s, .cancel) ∈ events → t < s := by
  rw [follow_eq_some_iff]
  constructor
  · intro ends
    obtain ⟨ends, first⟩ := ends
    cases ends with
    | broken going lost =>
      refine ⟨⟨lost, fun t' lost' => first t' (.inr (.inr lost'))⟩, fun s lt found => ?_,
        fun s asked => ?_⟩
      · exact Nat.not_le_of_lt lt (first s (.inr (.inl found)))
      · have distinct : t ≠ s := fun same => going (mem_inOrder.mpr (same ▸ asked))
        exact Nat.lt_of_le_of_ne (first s (.inl asked)) distinct
  · intro ends
    obtain ⟨⟨lost, first⟩, quiet, going⟩ := ends
    refine ⟨.broken (fun asked => Nat.lt_irrefl t (going t (mem_inOrder.mp asked))) lost, ?_⟩
    intro t' ends'
    rcases ends' with asked | found | lost'
    · exact Nat.le_of_lt (going t' asked)
    · exact Nat.le_of_not_lt fun lt => quiet t' lt found
    · exact first lost'

theorem follow_eq_none_iff : follow maxIdle events = none ↔ ∀ t, (t, .cancel) ∉ events ∧
    ¬ (known events t).FindsIdle maxIdle t ∧ ¬ (known events t).LosesDeadline maxIdle := by
  have ended := ended_follow maxIdle events
  constructor
  · intro never t
    rw [never] at ended
    cases ended with
    | never never =>
      have nothing : ¬ ∃ how, start.EndsAt maxIdle (inOrder events) t how :=
        fun ⟨how, ends⟩ => never t how (Nat.zero_le _) ends
      rw [endsAt_iff, not_or, not_or] at nothing
      exact nothing
  · intro nothing
    generalize follow maxIdle events = end? at ended
    cases ended with
    | never => rfl
    | @first t how _ ends _ =>
      obtain ⟨uncancelled, busy, shown⟩ := nothing t
      rcases endsAt_iff.mp ⟨how, ends⟩ with asked | found | lost
      · exact absurd asked uncancelled
      · exact absurd found busy
      · exact absurd lost shown

theorem follow_iff_of_gone {how : IdleEnd} (mem : (s, .gone) ∈ events)
    (still : ∀ t < s, ∀ how, follow maxIdle events ≠ some (t, how)) :
    follow maxIdle events = some (t, how) ↔ how = .cancelled ∧ FirstCancel events t := by
  constructor
  · intro ends
    have le : s ≤ t := Nat.le_of_not_lt fun lt => still t lt how ends
    obtain ⟨ends, first⟩ := follow_eq_some_iff.mp ends
    obtain ⟨rfl, asked⟩ := ends.cancelled_of_gone (gone_known mem le)
    exact ⟨rfl, asked, fun t' asked' => first t' (.inl asked')⟩
  · intro ends
    obtain ⟨rfl, asked, first⟩ := ends
    refine follow_eq_some_iff.mpr ⟨.cancelled (mem_inOrder.mpr asked), fun t' ends' => ?_⟩
    obtain ⟨how', ends'⟩ := endsAt_iff.mpr ends'
    have le : s ≤ t' := Nat.le_of_not_lt fun lt => not_endsAt_of_lt still lt ends'
    exact first (ends'.cancelled_of_gone (gone_known mem le)).2

/-! ## The reference -/

/-- **An idle tracker meets its reference.** -/
theorem follow_meets_reference (maxIdle : Span) (events : List (Nat × TrackerEvent)) :
    MeetsReference maxIdle events where
  cancelled_iff _ := follow_cancelled_iff
  idle_iff _ := follow_first_idle_iff
  broken_iff _ := follow_broken_iff
  lost_only _ := clock_ends_of_lost
  never_iff := follow_eq_none_iff
  unwaits := by
    intro before t after eq last uncancelled there shown passed still
    have knows := known_of_split eq last
    have found : (known events t).FindsIdle maxIdle t := by
      rw [knows, observe, if_neg (by rw [there]; exact nofun)]
      exact ⟨there, rfl, shown, Activity.passed_iff.mpr passed⟩
    exact follow_of_endsAt (.idle (mt mem_inOrder.mp uncancelled) found) still
  dropped _ mem still _ _ := follow_iff_of_gone mem still

/-! ## Deadlines that the clock shows -/

/-- The reader is there, does not wait, and has reached its deadline. -/
def Expired (k : Tracker) (maxIdle : Span) (t : Nat) : Prop :=
  k.gone = false ∧ k.activity.waitingForSlot = false ∧ k.activity.last + maxIdle.millisUp ≤ t

section

variable (shown : k.activity.hasDeadline maxIdle = true)

include shown

theorem findsIdle_iff : k.FindsIdle maxIdle t ↔ k.Expired maxIdle t := by
  refine and_congr_right fun _ => ?_
  rw [← Activity.passed_iff]
  exact ⟨fun idle => ⟨idle.free, idle.passed⟩, fun expired => ⟨expired.1, shown, expired.2⟩⟩

theorem not_losesDeadline : ¬ k.LosesDeadline maxIdle := by
  intro lost
  cases shown.symm.trans lost.2.2

end

/-- **Where the clock shows every deadline**, the reference has no row of its own: the first expired
instant and the first cancellation decide. -/
theorem follow_of_shown (shown : ∀ t, (known events t).activity.hasDeadline maxIdle = true) :
    (∀ t, follow maxIdle events = some (t, .cancelled) ↔
      FirstCancel events t ∧ ∀ s < t, ¬ (known events s).Expired maxIdle s) ∧
    (∀ t, follow maxIdle events = some (t, .idle) ↔
      IsLeast {t | (known events t).Expired maxIdle t} t ∧ ∀ s, (s, .cancel) ∈ events → t < s) ∧
    (∀ t, follow maxIdle events ≠ some (t, .broken)) ∧
    (follow maxIdle events = none ↔
      ∀ t, (t, .cancel) ∉ events ∧ ¬ (known events t).Expired maxIdle t) := by
  have expired (t : Nat) :
      (known events t).FindsIdle maxIdle t ↔ (known events t).Expired maxIdle t :=
    findsIdle_iff (shown t)
  have kept (t : Nat) : ¬ (known events t).LosesDeadline maxIdle := not_losesDeadline (shown t)
  refine ⟨fun t => ?_, fun t => ?_, fun t broken => ?_, ?_⟩
  · simp only [follow_cancelled_iff, expired, kept, not_false_eq_true, and_true]
  · simp only [follow_first_idle_iff, expired]
  · exact kept t (follow_broken_iff.mp broken).1.1
  · simp only [follow_eq_none_iff, expired, kept, not_false_eq_true, and_true]

end CheckAgent.Tracker
