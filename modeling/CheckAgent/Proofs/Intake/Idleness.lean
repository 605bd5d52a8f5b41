import Mathlib.Data.List.Induction
import CheckAgent.Proofs.Intake.Reading
import CheckAgent.Proofs.Intake.Tracking

/-!
# Stopping when there is nothing to read

The agent stops when a tracker finds its reader idle. The tracker does not see the reader itself,
only **what the reader shows of each step** (`ReaderMoment.sign?`): that it begins to wait for a
slot, or that it is active.

**Main result** (`stops_when_idle`). For a reading that is not cancelled, the reader shows that it
waits for a slot exactly while it is in line for one, and a tracker stops at the first instant at
which the reader is not in line and has not been active for long enough. A reader is active when it
begins, when it reads a message and when it gets a slot after having had to wait for one. So the
agent does not stop while all its slots are taken and the reader waits, nor soon after that, nor
soon after a message; asking for a message in vain changes nothing.

What a tracker has been told is what the reader has last shown of itself (`observeAll_signs`). This
carries the account of the tracker alone over to the reader.
-/

namespace CheckAgent

namespace Reader

/-- The reader is in line for a slot. -/
def blocked (r : Reader) : Bool := r.slots.line.any (·.owner = forOne)

end Reader

namespace ReaderMoment

/-- The reader reads a message, or gets a slot after having had to wait for one. -/
def activates (m : ReaderMoment) : Bool :=
  m.event.message?.isSome || (m.before.blocked && m.after.phase = .receiving)

/-- What a moment shows of the reader: nothing, unless the record of its activity changes. -/
def sign? (m : ReaderMoment) : Option TrackerEvent :=
  if m.after.activity = m.before.activity then none
  else if m.after.activity.waitingForSlot then some .wait
  else some .touch

end ReaderMoment

namespace Reads

/-- What a tracker of a reading observes. -/
def signs (log : List ReaderMoment) : List (Nat × TrackerEvent) :=
  log.filterMap fun m => m.sign?.map (m.time, ·)

def past (log : List ReaderMoment) (t : Nat) : List ReaderMoment := log.filter (·.time ≤ t)

/-- The reader after some moments. -/
def readerAfter (capacity : Nat) (log : List ReaderMoment) : Reader :=
  (log.getLast?.map (·.after)).getD (.start capacity)

/-- When the reader was last active; when it began, if it has not been active since. -/
def lastActive (log : List ReaderMoment) : Nat :=
  (log.filter (·.activates)).foldl (fun t m => max t m.time) 0

/-- The reader is idle at an instant: it is not in line for a slot, and the clock has shown that it
has not been active for a time. -/
structure IdleAt (capacity : Nat) (log : List ReaderMoment) (maxIdle : Span) (t : Nat) : Prop where
  free : (readerAfter capacity (past log t)).blocked = false
  shown : (Activity.touched (lastActive (past log t))).hasDeadline maxIdle = true
  passed : (Span.ofMillis (lastActive (past log t))).nanos + maxIdle.nanos ≤ (Span.ofMillis t).nanos

/-- When a tracker stops the reading of a queue. -/
structure StopsIdle (capacity : Nat) (log : List ReaderMoment) (maxIdle : Span) : Prop where
  /-- The reader shows that it waits exactly while it is in line for a slot. -/
  waits : ∀ m ∈ log, m.after.activity.waitingForSlot = m.after.blocked
  /-- It leaves the line by getting a slot, and so is active then. -/
  leaves : ∀ m ∈ log, m.before.blocked = true → m.after.blocked = false → m.activates = true
  /-- The tracker stops at the first instant at which the reader is idle. -/
  stops_iff : ∀ t, Tracker.follow maxIdle (signs log) = some (t, .idle) ↔
    IsLeast {t | IdleAt capacity log maxIdle t} t
  /-- It does not stop while the reader is in line. -/
  saturated : ∀ t, (readerAfter capacity (past log t)).blocked = true →
    Tracker.follow maxIdle (signs log) ≠ some (t, .idle)
  /-- It does not stop soon after the reader was active. -/
  apart : ∀ t, Tracker.follow maxIdle (signs log) = some (t, .idle) →
    ∀ m ∈ log, m.activates = true → m.time ≤ t →
      (Span.ofMillis m.time).nanos + maxIdle.nanos ≤ (Span.ofMillis t).nanos
  /-- Asking in vain shows nothing. -/
  silent : ∀ m ∈ log, m.event = .received .nothing ∨ m.event = .received .failed →
    m.sign? = none ∧ m.activates = false
  /-- Whether it has stopped by an instant is settled by then. -/
  settled : ∀ t, Tracker.follow maxIdle (signs (past log t)) = some (t, .idle) ↔
    Tracker.follow maxIdle (signs log) = some (t, .idle)

end Reads

/-! ## When a reader was last active -/

namespace Reader

variable {r : Reader} {t : Nat} {event : ReaderEvent} {out : Reader × List ReaderEffect}

theorem Placed.blocked_eq (placed : r.Placed) : r.blocked = decide (r.phase = .waiting) := by
  have owners : r.blocked = (r.slots.line.map (·.owner)).any (· = forOne) := by
    rw [List.any_map]
    rfl
  rw [owners, placed]
  cases r.phase <;> rfl

theorem activity_drain (r : Reader) : r.drain.activity = r.activity := by
  unfold drain
  dsimp only
  split <;> rfl

theorem phase_drain (r : Reader) : r.drain.phase = .draining ∨ r.drain.phase = .finished := by
  unfold drain
  dsimp only
  split
  · exact .inr rfl
  · exact .inl rfl

theorem last_seek (r : Reader) : r.seek.1.activity.last = r.activity.last := by
  unfold seek
  cases r.slots.tryTake with
  | none =>
    dsimp only
    split
    · rw [activity_drain]
      rfl
    · rfl
  | some slots =>
    dsimp only
    split
    · rw [activity_drain]
    · rfl

theorem activity_cancel (r : Reader) : r.cancel.activity = r.activity := by
  unfold cancel
  cases r.phase with
  | waiting | receiving | pausing => exact activity_drain _
  | seeking | draining | finished => rfl

theorem phase_cancel (r : Reader) : r.cancel.phase ≠ .receiving := by
  have drained (r : Reader) : r.drain.phase ≠ .receiving := by
    rcases r.phase_drain with drains | finishes
    · rw [drains]
      exact nofun
    · rw [finishes]
      exact nofun
  obtain ⟨phase, cancelled, slots, activity, inFlight, next⟩ := r
  cases phase with
  | waiting | receiving | pausing => exact drained _
  | seeking | draining | finished => exact nofun

/-- A step makes the reader active: it reads a message, or leaves the line with a slot. -/
def Activates (r : Reader) (event : ReaderEvent) (r' : Reader) : Prop :=
  event.message?.isSome = true ∨ r.phase = .waiting ∧ r'.phase = .receiving

/-- What a step has to do with the record of when the reader was last active. -/
def Dates (r : Reader) (t : Nat) (event : ReaderEvent) (r' : Reader) : Prop :=
  r.Activates event r' ∧ r'.activity.last = t ∨
    ¬ r.Activates event r' ∧ r'.activity.last = r.activity.last

/-- A step by which no message is read and the reader does not leave the line. -/
theorem dates_of_silent {r' : Reader} (silent : event.message? = none)
    (stays : r.phase ≠ .waiting ∨ r'.phase ≠ .receiving)
    (same : r'.activity.last = r.activity.last) : r.Dates t event r' := by
  refine .inr ⟨?_, same⟩
  rintro (message | ⟨waits, receives⟩)
  · rw [silent] at message
    cases message
  · exact stays.elim (· waits) (· receives)

theorem giveBack_dates (placed : r.Placed) (silent : event.message? = none) (n : Nat) :
    r.Dates t event (r.giveBack t n).1 := by
  have owners := Slots.owners_release r.slots 1
  rw [show r.slots.line.map (·.owner) = places r.phase from placed] at owners
  unfold giveBack
  generalize r.slots.release 1 = out at owners
  obtain ⟨slots, met⟩ := out
  dsimp only at owners ⊢
  by_cases one : forOne ∈ met
  · have alone := (served_alone owners one).2
    have waits : r.phase = .waiting := by
      cases phase : r.phase with
      | waiting => rfl
      | seeking | receiving | pausing | draining | finished =>
        rw [phase] at alone
        cases alone
    rw [if_pos one]
    exact .inl ⟨.inr ⟨waits, rfl⟩, rfl⟩
  · rw [if_neg one]
    by_cases all : forAll ∈ met
    · rw [if_pos all]
      exact dates_of_silent silent (.inr nofun) rfl
    · rw [if_neg all]
      refine dates_of_silent silent ?_ rfl
      by_cases waits : r.phase = .waiting
      · exact .inr fun receives => nomatch waits.symm.trans receives
      · exact .inl waits

/-- **The record says when the reader was last active**, whether it is cancelled or not. -/
theorem Placed.dates (placed : r.Placed) (steps : r.Steps t event out) :
    r.Dates t event out.1 := by
  cases steps with
  | seek phase => exact dates_of_silent rfl (.inl (by simp [phase])) (last_seek r)
  | received what phase =>
    cases what with
    | message m => exact .inl ⟨.inl rfl, rfl⟩
    | nothing | failed => exact dates_of_silent rfl (.inl (by simp [phase])) rfl
  | rested phase => exact dates_of_silent rfl (.inl (by simp [phase])) rfl
  | cancel =>
    exact dates_of_silent rfl (.inr r.phase_cancel) (congrArg (·.last) r.activity_cancel)
  | hands n m busy =>
    refine dates_of_silent rfl ?_ rfl
    by_cases waits : r.phase = .waiting
    · exact .inr fun receives => nomatch waits.symm.trans receives
    · exact .inl waits
  | keeps n m busy | deleted n m busy => exact giveBack_dates placed rfl n

end Reader

namespace ReaderMoment

open Reader

variable {m : ReaderMoment}

theorem activates_iff (placed : m.before.Placed) :
    m.activates = true ↔ m.before.Activates m.event m.after := by
  simp [activates, Reader.Activates, placed.blocked_eq]

theorem last_eq (placed : m.before.Placed)
    (steps : m.before.Steps m.time m.event (m.after, m.effects)) :
    m.after.activity.last = if m.activates then m.time else m.before.activity.last := by
  have active := activates_iff placed
  rcases placed.dates steps with ⟨now, last⟩ | ⟨not_now, last⟩
  · rw [if_pos (active.mpr now)]
    exact last
  · rw [if_neg (mt active.mp not_now)]
    exact last

end ReaderMoment

/-! ## A reader that is not cancelled -/

namespace Reader

variable {r : Reader} {t : Nat} {event : ReaderEvent} {out : Reader × List ReaderEffect}

/-- The reader has not been cancelled: nobody but the reader is in line, for one slot and only
while it waits, and it shows that it does. -/
structure Going (r : Reader) : Prop where
  going : r.cancelled = false
  line : r.slots.line = if r.phase = .waiting then [⟨forOne, 1, 0⟩] else []
  shows : r.activity.waitingForSlot = decide (r.phase = .waiting)

theorem start_going (capacity : Nat) : (start capacity).Going := ⟨rfl, rfl, rfl⟩

theorem Going.blocked_eq (going : r.Going) : r.blocked = decide (r.phase = .waiting) := by
  unfold blocked
  rw [going.line]
  by_cases waits : r.phase = .waiting
  · rw [if_pos waits, decide_eq_true waits]
    rfl
  · rw [if_neg waits, decide_eq_false waits]
    rfl

/-- What a step makes of the record of the reader's activity. -/
inductive Shows (r : Reader) (t : Nat) (event : ReaderEvent) (r' : Reader) : Prop where
  /-- The reader is active. -/
  | active (now : event.message?.isSome = true ∨ r.phase = .waiting ∧ r'.phase = .receiving)
      (after : r'.activity = .touched t) : Shows r t event r'
  /-- It begins to wait for a slot. -/
  | waits (silent : event.message? = none) (free : r.phase ≠ .waiting) (line : r'.phase = .waiting)
      (after : r'.activity = r.activity.waiting) : Shows r t event r'
  /-- Nothing changes. -/
  | same (silent : event.message? = none) (place : r'.phase = .waiting ↔ r.phase = .waiting)
      (after : r'.activity = r.activity) : Shows r t event r'

theorem seek_going (going : r.Going) (phase : r.phase = .seeking) :
    r.seek.1.Going ∧ r.Shows t .seek r.seek.1 := by
  have line := going.line
  have shows := going.shows
  rw [phase] at line shows
  unfold seek
  cases takes : r.slots.tryTake with
  | none =>
    have none_free : r.slots.free = 0 := by
      unfold Slots.tryTake at takes
      split at takes
      · assumption
      · cases takes
    have stands : (r.slots.request forOne 1).1.line = [⟨forOne, 1, 0⟩] := by
      simp [Slots.request, none_free, line]
    simp only [going.going, Bool.false_eq_true, if_false]
    exact ⟨⟨rfl, stands, rfl⟩, .waits rfl (by simp [phase]) rfl rfl⟩
  | some slots =>
    have same : slots.line = [] := by
      unfold Slots.tryTake at takes
      split at takes
      · cases takes
      · cases takes
        exact line
    simp only [going.going, Bool.false_eq_true, if_false]
    exact ⟨⟨rfl, same, shows⟩, .same rfl (by simp [phase, ask]) rfl⟩

theorem receive_going (going : r.Going) (phase : r.phase = .receiving) (what : Received) :
    (r.receive t what).1.Going ∧ r.Shows t (.received what) (r.receive t what).1 := by
  have line := going.line
  have shows := going.shows
  rw [phase] at line shows
  cases what with
  | message m => exact ⟨⟨going.going, line, rfl⟩, .active (.inl rfl) rfl⟩
  | nothing | failed =>
    have freed : (r.slots.release 1).1.line = [] := by
      simp [Slots.release, Slots.serve, line]
    exact ⟨⟨going.going, freed, shows⟩, .same rfl (by simp [phase, receive]) rfl⟩

theorem giveBack_going (going : r.Going) (silent : event.message? = none) (n : Nat) :
    (r.giveBack t n).1.Going ∧ r.Shows t event (r.giveBack t n).1 := by
  have line := going.line
  unfold giveBack
  by_cases waits : r.phase = .waiting
  · rw [if_pos waits] at line
    have granted : r.slots.release 1 = (⟨r.slots.capacity, r.slots.free, []⟩, [forOne]) := by
      simp [Slots.release, Slots.serve, line]
    rw [granted]
    exact ⟨⟨going.going, rfl, rfl⟩, .active (.inr ⟨waits, rfl⟩) rfl⟩
  · rw [if_neg waits] at line
    have freed : r.slots.release 1 = (⟨r.slots.capacity, r.slots.free + 1, []⟩, []) := by
      simp [Slots.release, Slots.serve, line]
    rw [freed]
    exact ⟨⟨going.going, (if_neg waits).symm, going.shows⟩, .same silent Iff.rfl rfl⟩

/-- **A step of a reader that is not cancelled**, and what it shows. -/
theorem Going.step (going : r.Going) (steps : r.Steps t event out) (goes_on : event ≠ .cancel) :
    out.1.Going ∧ r.Shows t event out.1 := by
  have line := going.line
  have shows := going.shows
  cases steps with
  | seek phase => exact seek_going going phase
  | received what phase => exact receive_going going phase what
  | rested phase =>
    rw [phase] at line shows
    refine ⟨⟨going.going, line, shows⟩, .same rfl ?_ rfl⟩
    rw [phase]
    exact ⟨nofun, nofun⟩
  | cancel => exact absurd rfl goes_on
  | hands n m busy => exact ⟨⟨going.going, line, shows⟩, .same rfl Iff.rfl rfl⟩
  | keeps n m busy | deleted n m busy => exact giveBack_going going rfl n

end Reader

/-! ## What a moment shows -/

namespace ReaderMoment

open Reader

variable {m : ReaderMoment}

/-- Where a step of a reader that is not cancelled leads, and how it shows. -/
structure Going (m : ReaderMoment) : Prop where
  before : m.before.Going
  after : m.after.Going
  shows : m.before.Shows m.time m.event m.after

theorem Going.activates_iff (going : m.Going) : m.activates = true ↔
    m.event.message?.isSome = true ∨ m.before.phase = .waiting ∧ m.after.phase = .receiving := by
  simp [activates, going.before.blocked_eq]

/-- A tracker that observes what a moment shows knows the record of the reader. -/
theorem Going.observeAll_sign (going : m.Going) :
    Tracker.observeAll ⟨m.before.activity, false⟩ (m.sign?.map (m.time, ·)).toList =
      ⟨m.after.activity, false⟩ := by
  unfold sign?
  by_cases same : m.after.activity = m.before.activity
  · rw [if_pos same, same]
    rfl
  · rw [if_neg same]
    cases going.shows with
    | active now after =>
      rw [after]
      rfl
    | waits silent free line after =>
      rw [after]
      rfl
    | same silent place after => exact absurd after same

theorem Going.silent (going : m.Going)
    (steps : m.before.Steps m.time m.event (m.after, m.effects))
    (vain : m.event = .received .nothing ∨ m.event = .received .failed) :
    m.sign? = none ∧ m.activates = false := by
  have silent : m.event.message? = none ∧ m.before.phase = .receiving ∧
      m.after.activity = m.before.activity := by
    rcases vain with vain | vain <;> rw [vain] at steps ⊢ <;>
      obtain ⟨phase, same⟩ := steps.of_received <;>
      exact ⟨rfl, phase, congrArg (·.1.activity) same⟩
  obtain ⟨silent, phase, same⟩ := silent
  exact ⟨if_pos same, by simp [activates, silent, going.before.blocked_eq, phase]⟩

theorem Going.leaves (going : m.Going) (stood : m.before.blocked = true)
    (left : m.after.blocked = false) : m.activates = true := by
  rw [going.before.blocked_eq, decide_eq_true_eq] at stood
  rw [going.after.blocked_eq, decide_eq_false_iff_not] at left
  refine going.activates_iff.mpr ?_
  cases going.shows with
  | active now after => exact now
  | waits silent free line after => exact absurd line left
  | same silent place after => exact absurd (place.mpr stood) left

end ReaderMoment

/-! ## The whole reading -/

namespace Reads

open Reader

variable {capacity : Nat} {log : List ReaderMoment} {r : Reader} {m : ReaderMoment} {t : Nat}

theorem signs_snoc : signs (log ++ [m]) = signs log ++ (m.sign?.map (m.time, ·)).toList := by
  cases h : m.sign? <;> simp [signs, h]

/-- The signs up to an instant are those of the moments up to it. -/
theorem filter_signs : (signs log).filter (·.1 ≤ t) = signs (past log t) := by
  unfold signs past
  rw [List.filter_filterMap, List.filterMap_filter]
  congr 1
  funext m
  cases m.sign? with
  | none => simp
  | some sign => by_cases le : m.time ≤ t <;> simp [le, Option.filter]

theorem signs_sorted (timely : log.Pairwise fun a b => a.time ≤ b.time) :
    (signs log).Pairwise fun a b => a.1 ≤ b.1 := by
  refine timely.filterMap _ fun a b le x hx y hy => ?_
  obtain ⟨_, -, rfl⟩ := Option.map_eq_some_iff.mp hx
  obtain ⟨_, -, rfl⟩ := Option.map_eq_some_iff.mp hy
  exact le

theorem signs_ne_cancel : ∀ e ∈ signs log, e.2 ≠ .cancel := by
  intro e mem
  obtain ⟨m, -, eq⟩ := List.mem_filterMap.mp mem
  obtain ⟨sign, shows, rfl⟩ := Option.map_eq_some_iff.mp eq
  unfold ReaderMoment.sign? at shows
  split at shows
  · cases shows
  · split at shows <;> cases shows <;> exact nofun

theorem lastActive_snoc : lastActive (log ++ [m]) =
    if m.activates then max (lastActive log) m.time else lastActive log := by
  unfold lastActive
  cases active : m.activates <;> simp [active]

theorem lastActive_le (earlier : ∀ m ∈ log, m.time ≤ t) : lastActive log ≤ t := by
  induction log using List.reverseRecOn with
  | nil => exact Nat.zero_le t
  | append_singleton log m ih =>
    have before := ih fun m mem => earlier m (List.mem_append_left _ mem)
    have last := earlier m (by simp)
    rw [lastActive_snoc]
    split
    · exact Nat.max_le.mpr ⟨before, last⟩
    · exact before

theorem le_lastActive (mem : m ∈ log) (active : m.activates = true) : m.time ≤ lastActive log := by
  induction log using List.reverseRecOn with
  | nil => cases mem
  | append_singleton log last ih =>
    rw [lastActive_snoc]
    rcases List.mem_append.mp mem with mem | mem
    · split
      · exact Nat.le_trans (ih mem) (Nat.le_max_left ..)
      · exact ih mem
    · rw [List.mem_singleton.mp mem] at active ⊢
      rw [if_pos active]
      exact Nat.le_max_right ..

theorem past_past {t' : Nat} (le : t' ≤ t) : past (past log t) t' = past log t' := by
  unfold past
  rw [List.filter_filter]
  refine List.filter_congr fun m _ => ?_
  by_cases h : m.time ≤ t'
  · simp [h, h.trans le]
  · simp [h]

theorem readerAfter_eq (reads : Reads capacity log r) : readerAfter capacity log = r := by
  cases reads with
  | start => rfl
  | next t event reads happens => simp [readerAfter]

theorem reads_past (reads : Reads capacity log r)
    (timely : log.Pairwise fun a b => a.time ≤ b.time) :
    ∃ r', Reads capacity (past log t) r' := by
  induction reads with
  | start => exact ⟨_, .start⟩
  | @next log r r' time event effects reads happens ih =>
    obtain ⟨timely', -, earlier⟩ := List.pairwise_append.mp timely
    by_cases le : time ≤ t
    · have all : past (log ++ [⟨r, time, event, r', effects⟩]) t =
          log ++ [⟨r, time, event, r', effects⟩] := by
        refine List.filter_eq_self.mpr fun m mem => decide_eq_true ?_
        rcases List.mem_append.mp mem with mem | mem
        · exact Nat.le_trans (earlier m mem _ (List.mem_singleton_self _)) le
        · rw [List.mem_singleton.mp mem]
          exact le
      rw [all]
      exact ⟨r', .next time event reads happens⟩
    · have same : past (log ++ [⟨r, time, event, r', effects⟩]) t = past log t := by
        simp [past, le]
      rw [same]
      exact ih timely'

theorem going (reads : Reads capacity log r) (uncancelled : ∀ m ∈ log, m.event ≠ .cancel) :
    r.Going ∧ ∀ m ∈ log, m.Going := by
  induction reads with
  | start => exact ⟨start_going capacity, List.forall_mem_nil _⟩
  | @next log r r' t event effects reads happens ih =>
    obtain ⟨going, all⟩ := ih fun m mem => uncancelled m (List.mem_append_left _ mem)
    have goes_on : event ≠ .cancel :=
      uncancelled ⟨r, t, event, r', effects⟩ (List.mem_append_right _ (List.mem_singleton_self _))
    have steps := steps_of_step happens
    obtain ⟨after, shows⟩ := going.step steps goes_on
    refine ⟨after, fun m mem => ?_⟩
    rcases List.mem_append.mp mem with mem | mem
    · exact all m mem
    · rw [List.mem_singleton.mp mem]
      exact ⟨going, after, shows⟩

/-- **What a tracker has been told** is the record of the reader's activity. -/
theorem observeAll_signs (reads : Reads capacity log r)
    (uncancelled : ∀ m ∈ log, m.event ≠ .cancel) :
    Tracker.start.observeAll (signs log) = ⟨r.activity, false⟩ := by
  induction reads with
  | start => rfl
  | @next log r r' t event effects reads happens ih =>
    have going := ((reads.next t event happens).going uncancelled).2 _
      (List.mem_append_right _ (List.mem_singleton_self _))
    rw [signs_snoc, Tracker.observeAll_append,
      ih fun m mem => uncancelled m (List.mem_append_left _ mem)]
    exact going.observeAll_sign

theorem placed (reads : Reads capacity log r) : r.Placed := by
  induction reads with
  | start => exact start_placed capacity
  | next t event reads happens ih => exact ih.step (steps_of_step happens)

theorem last_eq (reads : Reads capacity log r)
    (timely : log.Pairwise fun a b => a.time ≤ b.time) : r.activity.last = lastActive log := by
  induction reads with
  | start => rfl
  | @next log r r' t event effects reads happens ih =>
    obtain ⟨timely', -, earlier⟩ := List.pairwise_append.mp timely
    have before : lastActive log ≤ t :=
      lastActive_le fun m mem => earlier m mem _ (List.mem_singleton_self _)
    have last := ReaderMoment.last_eq (m := ⟨r, t, event, r', effects⟩) reads.placed
      (steps_of_step happens)
    dsimp only at last
    rw [lastActive_snoc, Nat.max_eq_right before, last, ih timely']

theorem findsIdle_iff {maxIdle : Span} (reads : Reads capacity log r)
    (timely : log.Pairwise fun a b => a.time ≤ b.time)
    (uncancelled : ∀ m ∈ log, m.event ≠ .cancel) :
    (Tracker.start.upTo (signs log) t).FindsIdle maxIdle t ↔ IdleAt capacity log maxIdle t := by
  obtain ⟨r', reads'⟩ := reads.reads_past (t := t) timely
  have uncancelled' : ∀ m ∈ past log t, m.event ≠ .cancel :=
    fun m mem => uncancelled m (List.mem_filter.mp mem).1
  have going := (reads'.going uncancelled').1
  have last := reads'.last_eq (timely.filter _)
  have shows : r'.activity.waitingForSlot = (readerAfter capacity (past log t)).blocked := by
    rw [reads'.readerAfter_eq, going.blocked_eq, going.shows]
  rw [Tracker.upTo, filter_signs, reads'.observeAll_signs uncancelled']
  constructor
  · rintro ⟨-, free, shown, passed⟩
    rw [last] at passed
    refine ⟨shows ▸ free, ?_, passed⟩
    rw [← last]
    exact shown
  · rintro ⟨free, shown, passed⟩
    rw [← last] at shown passed
    exact ⟨rfl, shows.trans free, shown, passed⟩

theorem follow_signs_iff {maxIdle : Span} (reads : Reads capacity log r)
    (timely : log.Pairwise fun a b => a.time ≤ b.time)
    (uncancelled : ∀ m ∈ log, m.event ≠ .cancel) :
    Tracker.follow maxIdle (signs log) = some (t, .idle) ↔
      IsLeast {t | IdleAt capacity log maxIdle t} t := by
  rw [Tracker.follow_idle_iff (signs_sorted timely) signs_ne_cancel]
  simp only [reads.findsIdle_iff timely uncancelled]

/-- The first instant at which something holds is told by the instants up to it. -/
theorem isLeast_of_agree {S T : Set Nat} (same : ∀ t' ≤ t, t' ∈ S ↔ t' ∈ T)
    (first : IsLeast S t) : IsLeast T t := by
  refine ⟨(same t (Nat.le_refl t)).mp first.1, fun t' mem => ?_⟩
  by_contra early
  exact early (first.2 ((same t' (Nat.le_of_not_le early)).mpr mem))

/-- **The reader's idle stop.** -/
theorem stops_when_idle (reads : Reads capacity log r)
    (timely : log.Pairwise fun a b => a.time ≤ b.time)
    (uncancelled : ∀ m ∈ log, m.event ≠ .cancel) (maxIdle : Span) :
    StopsIdle capacity log maxIdle := by
  have going := (reads.going uncancelled).2
  have stops_iff (t : Nat) : Tracker.follow maxIdle (signs log) = some (t, .idle) ↔
      IsLeast {t | IdleAt capacity log maxIdle t} t := reads.follow_signs_iff timely uncancelled
  refine {
    waits := fun m mem => ?waits
    leaves := fun m mem => (going m mem).leaves
    stops_iff := stops_iff
    saturated := fun t blocked stops => ?saturated
    apart := fun t stops m mem active le => ?apart
    silent := fun m mem vain => ?silent
    settled := fun t => ?settled }
  case waits =>
    rw [(going m mem).after.blocked_eq, (going m mem).after.shows]
  case saturated =>
    have free := ((stops_iff t).mp stops).1.free
    rw [blocked] at free
    cases free
  case apart =>
    have passed := ((stops_iff t).mp stops).1.passed
    have last : m.time ≤ lastActive (past log t) :=
      le_lastActive (List.mem_filter.mpr ⟨mem, decide_eq_true le⟩) active
    exact Nat.le_trans (Activity.nanos_mono last) passed
  case silent =>
    obtain ⟨before, after, log_eq⟩ := List.append_of_mem mem
    exact (going m mem).silent (steps_of_step (reads.split log_eq).2) vain
  case settled =>
    obtain ⟨r', reads'⟩ := reads.reads_past (t := t) timely
    rw [stops_iff, reads'.follow_signs_iff (timely.filter _)
      fun m mem => uncancelled m (List.mem_filter.mp mem).1]
    have same (t' : Nat) (le : t' ≤ t) :
        IdleAt capacity (past log t) maxIdle t' ↔ IdleAt capacity log maxIdle t' := by
      constructor
      · rintro ⟨free, shown, passed⟩
        rw [past_past le] at free shown passed
        exact ⟨free, shown, passed⟩
      · rintro ⟨free, shown, passed⟩
        refine ⟨?_, ?_, ?_⟩ <;> rw [past_past le] <;> assumption
    exact ⟨isLeast_of_agree same, isLeast_of_agree fun t' le => (same t' le).symm⟩

/-- A reader with one slot waits while a message is dealt with, gets the slot after 20 ms and asks
in vain; 30 ms later it counts as idle, though it asks again in between. -/
theorem stops_when_idle_after_waiting : ∃ log r, Reads 1 log r ∧
    (log.Pairwise fun a b => a.time ≤ b.time) ∧ (∀ m ∈ log, m.event ≠ .cancel) ∧
      (readerAfter 1 (past log 10)).blocked = true ∧
      Tracker.follow (.ofMillis 30) (signs log) = some (50, .idle) ∧
      StopsIdle 1 log (.ofMillis 30) := by
  obtain ⟨log, r, reads, timely, uncancelled, waits, shows⟩ : ∃ log r, Reads 1 log r ∧
      (log.Pairwise fun a b => a.time ≤ b.time) ∧ (∀ m ∈ log, m.event ≠ .cancel) ∧
        (readerAfter 1 (past log 10)).blocked = true ∧
        signs log = [(5, .touch), (5, .wait), (20, .touch)] := by
    refine ⟨_, _, .next 40 (.received .nothing) (.next 40 .seek (.next 30 .rested
      (.next 20 (.received .failed) (.next 20 (.processed 0 .keep) (.next 5 .seek
        (.next 5 (.received (.message ⟨"m", "text"⟩)) (.next 0 .seek .start rfl)
          rfl) rfl) rfl) rfl) rfl) rfl) rfl, ?_, ?_, rfl, ?_⟩
    · simp
    · simp
    · decide +kernel
  have stops : Tracker.follow (.ofMillis 30) (signs log) = some (50, .idle) := by
    rw [shows, Tracker.follow_of_sorted (by decide)]
    decide +kernel
  exact ⟨log, r, reads, timely, uncancelled, waits, stops,
    stops_when_idle reads timely uncancelled _⟩

end Reads

end CheckAgent
