import Mathlib.Order.Bounds.Basic
import CheckAgent.Intake.Idle

/-!
# The end of an idle tracker

A tracker sees the events one after the other and reckons its deadline anew after each of them.
What it knows **at an instant** is what the events up to that instant have told it (`upTo`).

**Main result** (`follow_idle_iff`). A tracker that is not cancelled finds the reader idle at the
first instant at which what it knows says so: the reader is there, does not wait for a slot, and its
deadline has come. Deadlines that were overtaken by an event do not count.

The induction is on the events that are still to come. Until the next one nothing changes but the
clock; a deadline that the clock cannot show stays out of its reach, since activity only moves
forward.
-/

namespace CheckAgent

namespace Activity

variable {a : Activity} {maxIdle : Span} {t : Nat}

/-- The reader has been idle for long enough by a time: it does not wait for a slot, and the clock
has shown its deadline. -/
structure IsIdle (a : Activity) (maxIdle : Span) (t : Nat) : Prop where
  free : a.waitingForSlot = false
  shown : a.hasDeadline maxIdle = true
  passed : (Span.ofMillis a.last).nanos + maxIdle.nanos ≤ (Span.ofMillis t).nanos

/-- A clock of milliseconds shows that a span has passed when it has waited for the span. -/
theorem passed_iff : (Span.ofMillis a.last).nanos + maxIdle.nanos ≤ (Span.ofMillis t).nanos ↔
    a.last + maxIdle.millisUp ≤ t := by
  simp only [Span.ofMillis, Span.millisUp]
  omega

theorem nanos_mono {last last' : Nat} (le : last ≤ last') :
    (Span.ofMillis last).nanos + maxIdle.nanos ≤ (Span.ofMillis last').nanos + maxIdle.nanos :=
  Nat.add_le_add_right (Nat.mul_le_mul_right _ le) _

theorem hasDeadline_mono {b : Activity} (le : a.last ≤ b.last)
    (h : b.hasDeadline maxIdle = true) : a.hasDeadline maxIdle = true :=
  decide_eq_true (Nat.lt_of_le_of_lt (nanos_mono le) (of_decide_eq_true h))

end Activity

namespace Tracker

variable {maxIdle : Span} {k : Tracker} {now t : Nat} {events : List (Nat × TrackerEvent)}

/-- What a tracker knows after some events. -/
def observeAll (k : Tracker) (events : List (Nat × TrackerEvent)) : Tracker :=
  events.foldl (fun k e => k.observe e.1 e.2) k

theorem observeAll_append (k : Tracker) (events more : List (Nat × TrackerEvent)) :
    k.observeAll (events ++ more) = (k.observeAll events).observeAll more :=
  List.foldl_append

/-- What a tracker knows at an instant, given the events before and after it. -/
def upTo (k : Tracker) (events : List (Nat × TrackerEvent)) (t : Nat) : Tracker :=
  k.observeAll (events.filter (·.1 ≤ t))

/-- The tracker knows of a reader that has been idle for long enough by a time. -/
def FindsIdle (k : Tracker) (maxIdle : Span) (t : Nat) : Prop :=
  k.gone = false ∧ k.activity.IsIdle maxIdle t

/-- The tracker would wait for a deadline that the clock cannot show. -/
def LosesDeadline (k : Tracker) (maxIdle : Span) : Prop :=
  k.gone = false ∧ k.activity.waitingForSlot = false ∧ k.activity.hasDeadline maxIdle = false

/-- How a tracker ends at an instant, if nothing has ended it before. A cancellation comes first. -/
inductive EndsAt (k : Tracker) (maxIdle : Span) (events : List (Nat × TrackerEvent)) (t : Nat) :
    IdleEnd → Prop where
  | cancelled (asked : (t, .cancel) ∈ events) : EndsAt k maxIdle events t .cancelled
  | idle (going : (t, .cancel) ∉ events) (found : (k.upTo events t).FindsIdle maxIdle t) :
      EndsAt k maxIdle events t .idle
  | broken (going : (t, .cancel) ∉ events) (lost : (k.upTo events t).LosesDeadline maxIdle) :
      EndsAt k maxIdle events t .broken

/-- When and how a tracker ends from some time on: at the first instant at which something ends
it. -/
inductive Ended (k : Tracker) (maxIdle : Span) (events : List (Nat × TrackerEvent)) (now : Nat) :
    Option (Nat × IdleEnd) → Prop where
  | never (never : ∀ t how, now ≤ t → ¬ k.EndsAt maxIdle events t how) :
      Ended k maxIdle events now none
  | first {t : Nat} {how : IdleEnd} (later : now ≤ t) (ends : k.EndsAt maxIdle events t how)
      (first : ∀ t' how', now ≤ t' → k.EndsAt maxIdle events t' how' → t ≤ t') :
      Ended k maxIdle events now (some (t, how))

/-! ## Between two events -/

theorem FindsIdle.not_losesDeadline (found : k.FindsIdle maxIdle t) :
    ¬ k.LosesDeadline maxIdle := by
  intro lost
  have hidden := lost.2.2
  rw [found.2.shown] at hidden
  cases hidden

theorem EndsAt.unique {how how' : IdleEnd} (ends : k.EndsAt maxIdle events t how)
    (ends' : k.EndsAt maxIdle events t how') : how = how' := by
  cases ends with
  | cancelled asked =>
    cases ends' with
    | cancelled => rfl
    | idle going | broken going => exact absurd asked going
  | idle going found =>
    cases ends' with
    | cancelled asked => exact absurd asked going
    | idle => rfl
    | broken _ lost => exact absurd lost found.not_losesDeadline
  | broken going lost =>
    cases ends' with
    | cancelled asked => exact absurd asked going
    | broken => rfl
    | idle _ found => exact absurd lost found.not_losesDeadline

/-- **Without further events** a tracker ends at the first instant at which what it knows ends
it. -/
theorem ended_due : k.Ended maxIdle [] now (k.due? maxIdle now) := by
  unfold due? Activity.deadline?
  cases gone : k.gone with
  | true =>
    refine .never fun t how _ ends => ?_
    cases ends with
    | cancelled asked => cases asked
    | idle _ found => cases gone.symm.trans found.1
    | broken _ lost => cases gone.symm.trans lost.1
  | false =>
    cases waits : k.activity.waitingForSlot with
    | true =>
      refine .never fun t how _ ends => ?_
      cases ends with
      | cancelled asked => cases asked
      | idle _ found => cases waits.symm.trans found.2.free
      | broken _ lost => cases waits.symm.trans lost.2.1
    | false =>
      cases shown : k.activity.hasDeadline maxIdle with
      | false =>
        have lost : k.LosesDeadline maxIdle := ⟨gone, waits, shown⟩
        exact .first (Nat.le_refl now) (.broken List.not_mem_nil lost) fun _ _ later _ => later
      | true =>
        have found : k.FindsIdle maxIdle (max now (k.activity.last + maxIdle.millisUp)) :=
          ⟨gone, waits, shown, Activity.passed_iff.mpr (Nat.le_max_right ..)⟩
        refine .first (Nat.le_max_left ..) (.idle List.not_mem_nil found) fun t how later ends => ?_
        cases ends with
        | cancelled asked => cases asked
        | idle _ found => exact Nat.max_le.mpr ⟨later, Activity.passed_iff.mp found.2.passed⟩
        | broken _ lost => cases shown.symm.trans lost.2.2

/-! ## Activity moves forward -/

theorem last_le_observe (past : k.activity.last ≤ t) (event : TrackerEvent) :
    k.activity.last ≤ (k.observe t event).activity.last ∧
      (k.observe t event).activity.last ≤ t := by
  unfold observe
  split
  · exact ⟨Nat.le_refl _, past⟩
  · cases event with
    | touch => exact ⟨past, Nat.le_refl _⟩
    | wait | unwait | gone | cancel => exact ⟨Nat.le_refl _, past⟩

theorem last_le_observeAll (sorted : events.Pairwise fun a b => a.1 ≤ b.1)
    (later : ∀ e ∈ events, now ≤ e.1) (past : k.activity.last ≤ now) :
    k.activity.last ≤ (k.observeAll events).activity.last := by
  induction events generalizing k now with
  | nil => exact Nat.le_refl _
  | cons e rest ih =>
    obtain ⟨first, sorted⟩ := List.pairwise_cons.mp sorted
    have step := last_le_observe (Nat.le_trans past (later e (List.mem_cons_self ..))) e.2
    exact Nat.le_trans step.1 (ih sorted first step.2)

/-! ## The first event -/

theorem le_of_mem {e e' : Nat × TrackerEvent}
    (sorted : (e :: events).Pairwise fun a b => a.1 ≤ b.1) (mem : e' ∈ e :: events) :
    e.1 ≤ e'.1 := by
  rcases List.mem_cons.mp mem with rfl | mem
  · exact Nat.le_refl _
  · exact (List.pairwise_cons.mp sorted).1 e' mem

theorem upTo_of_lt {e : Nat × TrackerEvent} (sorted : (e :: events).Pairwise fun a b => a.1 ≤ b.1)
    (lt : t < e.1) : k.upTo (e :: events) t = k := by
  have none : (e :: events).filter (·.1 ≤ t) = [] := by
    refine List.filter_eq_nil_iff.mpr fun e' mem => ?_
    have le := le_of_mem sorted mem
    simp only [decide_eq_true_eq]
    omega
  rw [upTo, none]
  rfl

theorem upTo_of_le {e : Nat × TrackerEvent} (le : e.1 ≤ t) :
    k.upTo (e :: events) t = (k.observe e.1 e.2).upTo events t := by
  rw [upTo, List.filter_cons_of_pos (by simpa using le)]
  rfl

theorem last_upTo_mono {t' : Nat} (sorted : events.Pairwise fun a b => a.1 ≤ b.1)
    (later : ∀ e ∈ events, now ≤ e.1) (past : k.activity.last ≤ now) (le : t ≤ t') :
    (k.upTo events t).activity.last ≤ (k.upTo events t').activity.last := by
  induction events generalizing k now with
  | nil => exact Nat.le_refl _
  | cons e rest ih =>
    obtain ⟨first, sorted'⟩ := List.pairwise_cons.mp sorted
    by_cases seen : e.1 ≤ t
    · rw [upTo_of_le seen, upTo_of_le (seen.trans le)]
      have step := last_le_observe (past.trans (later e (List.mem_cons_self ..))) e.2
      exact ih sorted' first step.2
    · rw [upTo_of_lt sorted (Nat.lt_of_not_le seen)]
      exact last_le_observeAll (sorted.filter (·.1 ≤ t'))
        (fun e mem => later e (List.mem_filter.mp mem).1) past

/-- Before the first event a tracker ends as it would without events. -/
theorem endsAt_of_lt {e : Nat × TrackerEvent} {how : IdleEnd}
    (sorted : (e :: events).Pairwise fun a b => a.1 ≤ b.1) (lt : t < e.1) :
    k.EndsAt maxIdle (e :: events) t how ↔ k.EndsAt maxIdle [] t how := by
  have knows : k.upTo (e :: events) t = k := upTo_of_lt sorted lt
  have going : (t, .cancel) ∉ e :: events := by
    intro mem
    have le : e.1 ≤ t := le_of_mem sorted mem
    omega
  constructor
  · intro ends
    cases ends with
    | cancelled asked => exact absurd asked going
    | idle _ found => exact .idle List.not_mem_nil (knows ▸ found)
    | broken _ lost => exact .broken List.not_mem_nil (knows ▸ lost)
  · intro ends
    cases ends with
    | cancelled asked => cases asked
    | idle _ found => exact .idle going (knows.symm ▸ found)
    | broken _ lost => exact .broken going (knows.symm ▸ lost)

/-- From the first event on it ends as it does with what it has observed. -/
theorem endsAt_of_le {e : Nat × TrackerEvent} {how : IdleEnd} (le : e.1 ≤ t)
    (other : e.2 ≠ .cancel) : k.EndsAt maxIdle (e :: events) t how ↔
      (k.observe e.1 e.2).EndsAt maxIdle events t how := by
  have knows : k.upTo (e :: events) t = (k.observe e.1 e.2).upTo events t := upTo_of_le le
  have asked_iff : (t, .cancel) ∈ e :: events ↔ (t, .cancel) ∈ events := by
    constructor
    · intro mem
      rcases List.mem_cons.mp mem with rfl | mem
      · exact absurd rfl other
      · exact mem
    · exact List.mem_cons_of_mem e
  constructor
  · intro ends
    cases ends with
    | cancelled asked => exact .cancelled (asked_iff.mp asked)
    | idle going found => exact .idle (mt asked_iff.mpr going) (knows ▸ found)
    | broken going lost => exact .broken (mt asked_iff.mpr going) (knows ▸ lost)
  · intro ends
    cases ends with
    | cancelled asked => exact .cancelled (asked_iff.mpr asked)
    | idle going found => exact .idle (mt asked_iff.mp going) (knows.symm ▸ found)
    | broken going lost => exact .broken (mt asked_iff.mp going) (knows.symm ▸ lost)

/-! ## All events -/

/-- **The end of a tracker from some time on** is the first instant at which something ends it. -/
theorem ended_followFrom (sorted : events.Pairwise fun a b => a.1 ≤ b.1)
    (later : ∀ e ∈ events, now ≤ e.1) :
    k.Ended maxIdle events now (followFrom maxIdle k now events) := by
  induction events generalizing k now with
  | nil => exact ended_due
  | cons e rest ih =>
    obtain ⟨time, event⟩ := e
    have next : now ≤ time := later _ (List.mem_cons_self ..)
    have before {t : Nat} {how : IdleEnd} (lt : t < time) :
        k.EndsAt maxIdle ((time, event) :: rest) t how ↔ k.EndsAt maxIdle [] t how :=
      endsAt_of_lt sorted lt
    have due : k.Ended maxIdle [] now (k.due? maxIdle now) := ended_due
    unfold followFrom
    split
    · next ended fires =>
      -- a deadline comes before the event
      obtain ⟨eq, lt⟩ := Option.filter_eq_some_iff.mp fires
      obtain ⟨d, how⟩ := ended
      replace lt : d < time := of_decide_eq_true lt
      rw [eq] at due
      cases due with
      | first after ends least =>
        refine .first after ((before lt).mpr ends) fun t how' after ends => ?_
        by_cases early : t < time
        · exact least t how' after ((before early).mp ends)
        · omega
    · next quiet =>
      have nothing (t : Nat) (how : IdleEnd) (after : now ≤ t) (lt : t < time) :
          ¬ k.EndsAt maxIdle ((time, event) :: rest) t how := by
        intro ends
        replace ends := (before lt).mp ends
        generalize k.due? maxIdle now = end? at due quiet
        cases due with
        | never never => exact never t how after ends
        | @first d _ _ _ least =>
          have le := least t how after ends
          have lt' : d < time := by omega
          simp [Option.filter, lt'] at quiet
      have from_event (t : Nat) (how : IdleEnd) (after : now ≤ t)
          (ends : k.EndsAt maxIdle ((time, event) :: rest) t how) : time ≤ t :=
        Nat.le_of_not_lt fun lt => nothing t how after lt ends
      by_cases cancels : event = .cancel
      · rw [if_pos cancels]
        exact .first next (.cancelled (cancels ▸ List.mem_cons_self ..)) from_event
      · rw [if_neg cancels, Nat.max_eq_right next]
        obtain ⟨first, sorted'⟩ := List.pairwise_cons.mp sorted
        have rests {t : Nat} {how : IdleEnd} (le : time ≤ t) :
            k.EndsAt maxIdle ((time, event) :: rest) t how ↔
              (k.observe time event).EndsAt maxIdle rest t how := endsAt_of_le le cancels
        have ended := ih (k := k.observe time event) sorted' first
        generalize followFrom maxIdle (k.observe time event) time rest = end? at ended ⊢
        cases ended with
        | never never =>
          refine .never fun t how after ends => ?_
          have le := from_event t how after ends
          exact never t how le ((rests le).mp ends)
        | first le ends least =>
          refine .first (next.trans le) ((rests le).mpr ends) fun t how after ends => ?_
          have le := from_event t how after ends
          exact least t how le ((rests le).mp ends)

theorem Ended.eq_some_iff {ended : Option (Nat × IdleEnd)} {how : IdleEnd}
    (h : k.Ended maxIdle events now ended) : ended = some (t, how) ↔
      now ≤ t ∧ k.EndsAt maxIdle events t how ∧
        ∀ t' how', now ≤ t' → k.EndsAt maxIdle events t' how' → t ≤ t' := by
  constructor
  · intro eq
    subst eq
    cases h with
    | first later ends first => exact ⟨later, ends, first⟩
  · intro least
    obtain ⟨later, ends, first⟩ := least
    cases h with
    | never never => exact absurd ends (never t how later)
    | first later' ends' first' =>
      have same := Nat.le_antisymm (first' t how later ends) (first _ _ later' ends')
      subst same
      rw [ends.unique ends']

theorem FindsIdle.not_lost {s : Nat} (sorted : events.Pairwise fun a b => a.1 ≤ b.1)
    (later : ∀ e ∈ events, now ≤ e.1) (past : k.activity.last ≤ now)
    (found : (k.upTo events t).FindsIdle maxIdle t) (le : s ≤ t) :
    ¬ (k.upTo events s).LosesDeadline maxIdle := by
  intro lost
  have hidden := lost.2.2
  rw [Activity.hasDeadline_mono (last_upTo_mono sorted later past le) found.2.shown] at hidden
  cases hidden

/-- **When a tracker finds the reader idle**: at the first instant at which what it knows says so,
unless it is cancelled by then. -/
theorem followFrom_idle_iff (sorted : events.Pairwise fun a b => a.1 ≤ b.1)
    (later : ∀ e ∈ events, now ≤ e.1) (past : k.activity.last ≤ now) :
    followFrom maxIdle k now events = some (t, .idle) ↔
      IsLeast {t | now ≤ t ∧ (k.upTo events t).FindsIdle maxIdle t} t ∧
        ∀ s, (s, .cancel) ∈ events → t < s := by
  rw [(ended_followFrom sorted later).eq_some_iff]
  constructor
  · intro ends
    obtain ⟨after, ends, first⟩ := ends
    cases ends with
    | idle going found =>
      refine ⟨⟨⟨after, found⟩, fun t' found' => ?_⟩, fun s asked => ?_⟩
      · by_cases asked : (t', .cancel) ∈ events
        · exact first t' _ found'.1 (.cancelled asked)
        · exact first t' _ found'.1 (.idle asked found'.2)
      · have le := first s _ (later _ asked) (.cancelled asked)
        have distinct : t ≠ s := fun same => going (same ▸ asked)
        omega
  · intro least
    obtain ⟨⟨⟨after, found⟩, least⟩, going⟩ := least
    refine ⟨after, .idle (fun asked => Nat.lt_irrefl t (going t asked)) found, ?_⟩
    intro t' how after' ends
    cases ends with
    | cancelled asked => exact Nat.le_of_lt (going t' asked)
    | idle _ found' => exact least ⟨after', found'⟩
    | broken _ lost =>
      refine Nat.le_of_not_lt fun lt => ?_
      exact found.not_lost sorted later past (Nat.le_of_lt lt) lost

theorem follow_of_sorted (sorted : events.Pairwise fun a b => a.1 ≤ b.1) :
    follow maxIdle events = followFrom maxIdle start 0 events := by
  unfold follow
  rw [List.mergeSort_of_pairwise (sorted.imp fun le => decide_eq_true le)]

/-- **The end of a tracker.** A tracker that is not cancelled finds the reader idle at the first
instant at which what it knows says so. -/
theorem follow_idle_iff (sorted : events.Pairwise fun a b => a.1 ≤ b.1)
    (going : ∀ e ∈ events, e.2 ≠ .cancel) : follow maxIdle events = some (t, .idle) ↔
      IsLeast {t | (start.upTo events t).FindsIdle maxIdle t} t := by
  have uncancelled (s : Nat) (asked : (s, .cancel) ∈ events) : t < s := absurd rfl (going _ asked)
  rw [follow_of_sorted sorted,
    followFrom_idle_iff sorted (fun _ _ => Nat.zero_le _) (Nat.le_refl 0)]
  simp only [Nat.zero_le, true_and]
  exact and_iff_left uncancelled

end Tracker

end CheckAgent
