import Mathlib.Order.MinMax
import CheckAgent.Shutdown

/-!
# The order of a shutdown

A shutdown is driven by its signal and its tasks, and **whatever is due first happens first**; of
things that are due at one instant any may come first (`Reached`). The shutdown is over when it has
a result, or when nothing is due any more.

**Main result** (`shutdown_ordered`). The reading is cancelled at most once: when the idle tracker
finds the reader idle, or when the signal comes, whichever is earlier, and never without one of
them. A tracker that ends in another way is no reason. The listener is asked to stop when the
reading has been cancelled and both tracker and reader have ended. The result is then the reason, or
the error with which the listener stopped, whatever came of the tracker and the reader.

`Stands` says for each phase of the coordinator what is on record, and is kept by everything that
happens. `ShutdownCourse.follow` is one of the shutdowns in question.
-/

namespace CheckAgent

open ShutdownCourse

namespace StopScript

/-- When the tracker ends by itself because the reader is idle. -/
def idleDue (script : StopScript) : Option Nat :=
  if script.idle.untilCancel = false ∧ script.idle.outcome = .idle then some script.idle.delay
  else none

/-- How the listener stops: by itself, or because it takes too long. -/
def listenerStop (script : StopScript) : ListenerEnd :=
  if script.listener.1 ≤ script.patience.millisUp then script.listener.2
  else .unclean (.listenerTimeout script.patience)

/-- The result of a shutdown for a reason. -/
def verdict (script : StopScript) (reason : StopReason) : Except ShutdownError StopReason :=
  match script.listenerStop with
  | .clean => .ok reason
  | .unclean e => .error e

end StopScript

/-- A shutdown under way: the coordinator, whether the signal has come, what is on record of the
tasks, and what has been done and when. -/
structure Shutdown where
  coordinator : Coordinator
  signalled : Bool
  course : ShutdownCourse
  log : List (Nat × StopAction)

namespace Shutdown

def start : Shutdown := ⟨.start, false, ⟨none, none, none, none, none⟩, []⟩

def happen (s : Shutdown) (t : Nat) (event : StopEvent) : Shutdown :=
  let (next, actions) := s.coordinator.step event
  let course := actions.foldl (act t) (s.course.note t event)
  { coordinator := next
    signalled := s.signalled || event == .signal
    course := match next.result? with
      | some result => { course with ended := some (t, result) }
      | none => course
    log := s.log ++ actions.map (t, ·) }

/-- What is due, and when. -/
inductive Pends (script : StopScript) (s : Shutdown) : Nat → StopEvent → Prop where
  | signal {t : Nat} (silent : s.signalled = false) (comes : script.signalAt = some t) :
      Pends script s t .signal
  | idle {t : Nat} (runs : s.course.idleAt = none)
      (ends : taskEnd script.idle s.course.cancelledAt = some t) :
      Pends script s t (.idleEnded script.idle.outcome)
  | reader {t : Nat} (runs : s.course.readerAt = none)
      (ends : taskEnd script.reader s.course.cancelledAt = some t) :
      Pends script s t (.readerEnded script.reader.outcome)
  | listener {t asked : Nat} (stops : s.course.stopAskedAt = some asked)
      (ends : t = asked + min script.listener.1 script.patience.millisUp) :
      Pends script s t (.listenerEnded script.listenerStop)

/-- The shutdown has a result, or nothing is due. -/
def Over (script : StopScript) (s : Shutdown) : Prop :=
  s.coordinator.result?.isSome ∨ ∀ t event, ¬ s.Pends script t event

/-- The shutdowns that come about when what is due first happens first. -/
inductive Reached (script : StopScript) : Shutdown → Prop where
  | start : Reached script start
  | next {s : Shutdown} {t : Nat} {event : StopEvent} (reached : Reached script s)
      (going : s.coordinator.result? = none) (due : s.Pends script t event)
      (first : ∀ t' event', s.Pends script t' event' → t ≤ t') : Reached script (s.happen t event)

/-- What holds of a shutdown all along. -/
structure Ordered (script : StopScript) (s : Shutdown) : Prop where
  /-- The reading is cancelled at most once, and the listener asked to stop at most once. -/
  cancels : s.log.filter (·.2 = .cancelReading) =
    s.course.cancelledAt.toList.map (·, .cancelReading)
  stops : s.log.filter (·.2 = .stopListener) = s.course.stopAskedAt.toList.map (·, .stopListener)
  /-- The reading is not cancelled without a reason. -/
  triggered : ∀ t, s.course.cancelledAt = some t →
    script.signalAt = some t ∨ script.idleDue = some t
  /-- The listener is asked to stop as soon as the reading has been cancelled and the tracker and
  the reader have ended, and not before. -/
  asked : ∀ t, s.course.stopAskedAt = some t → ∃ cancelled idle reader,
    s.course.cancelledAt = some cancelled ∧ s.course.idleAt = some idle ∧
      s.course.readerAt = some reader ∧ t = max cancelled (max idle reader)

/-- What holds of a shutdown that is over. -/
structure Settled (script : StopScript) (s : Shutdown) : Prop where
  /-- The reader was found idle before the signal came, if it came. -/
  idle : ∀ t, script.idleDue = some t → (∀ t', script.signalAt = some t' → t < t') →
    s.course.cancelledAt = some t ∧ ∃ ended, s.course.ended = some (ended, script.verdict .idle)
  /-- The signal came before the reader was found idle, if it was. -/
  signal : ∀ t, script.signalAt = some t → (∀ t', script.idleDue = some t' → t < t') →
    s.course.cancelledAt = some t ∧ ∃ ended, s.course.ended = some (ended, script.verdict .signal)
  /-- Without a reason nothing is done. -/
  never : script.signalAt = none → script.idleDue = none → s.log = [] ∧ s.course.ended = none
  /-- The result is an error exactly if the listener did not stop cleanly. -/
  error_iff : ∀ ended result, s.course.ended = some (ended, result) →
    ((∃ e, result = .error e) ↔ script.listenerStop ≠ .clean)

/-! ## The phases of a shutdown -/

/-- The reading is cancelled for a reason at a time, and the other reason does not come before. -/
def Chosen (script : StopScript) (t : Nat) : StopReason → Prop
  | .signal => script.signalAt = some t ∧ ∀ t', script.idleDue = some t' → t ≤ t'
  | .idle => script.idleDue = some t ∧ ∀ t', script.signalAt = some t' → t ≤ t'

/-- What is on record in each phase by `now`. -/
inductive Stands (script : StopScript) (now : Nat) : Shutdown → Prop where
  | watching (reader : Option Nat) (past : ∀ t, reader = some t → t ≤ now) :
      Stands script now ⟨⟨.watching, reader.isSome⟩, false, ⟨none, none, reader, none, none⟩, []⟩
  | awaitingSignal {idle : Nat} (reader : Option Nat) (other : script.idleDue = none)
      (idlePast : idle ≤ now) (past : ∀ t, reader = some t → t ≤ now) :
      Stands script now
        ⟨⟨.awaitingSignal, reader.isSome⟩, false, ⟨some idle, none, reader, none, none⟩, []⟩
  | drainingIdle {cancelled : Nat} (reader : Option Nat) (chosen : Chosen script cancelled .signal)
      (cancelPast : cancelled ≤ now) (past : ∀ t, reader = some t → t ≤ now) :
      Stands script now ⟨⟨.drainingIdle .signal, reader.isSome⟩, true,
        ⟨none, some cancelled, reader, none, none⟩, [(cancelled, .cancelReading)]⟩
  | drainingReader {reason : StopReason} {signalled : Bool} {cancelled idle : Nat}
      (chosen : Chosen script cancelled reason) (cancelPast : cancelled ≤ now)
      (idlePast : idle ≤ now) :
      Stands script now ⟨⟨.drainingReader reason, false⟩, signalled,
        ⟨some idle, some cancelled, none, none, none⟩, [(cancelled, .cancelReading)]⟩
  | closing {reason : StopReason} (signalled : Bool) {cancelled : Nat} (idle reader : Nat)
      (chosen : Chosen script cancelled reason) :
      Stands script now ⟨⟨.closing reason, true⟩, signalled,
        ⟨some idle, some cancelled, some reader, some (max cancelled (max idle reader)), none⟩,
        [(cancelled, .cancelReading), (max cancelled (max idle reader), .stopListener)]⟩
  | stopped {reason : StopReason} {signalled : Bool} {cancelled idle reader ended : Nat}
      (chosen : Chosen script cancelled reason) :
      Stands script now ⟨⟨.stopped reason script.listenerStop, true⟩, signalled,
        ⟨some idle, some cancelled, some reader, some (max cancelled (max idle reader)),
          some (ended, script.verdict reason)⟩,
        [(cancelled, .cancelReading), (max cancelled (max idle reader), .stopListener)]⟩

variable {script : StopScript} {s : Shutdown} {now t : Nat} {event : StopEvent}

theorem taskEnd_none {α : Type} {task : StopTask α} (h : taskEnd task none = some t) :
    task.untilCancel = false ∧ task.delay = t := by
  unfold taskEnd at h
  split at h
  · cases h
  · next alone => exact ⟨by simpa using alone, Option.some.inj h⟩

theorem taskEnd_of_idleDue (h : script.idleDue = some t) (cancelledAt : Option Nat) :
    taskEnd script.idle cancelledAt = some t := by
  unfold StopScript.idleDue at h
  split at h
  · next alone => rw [taskEnd, alone.1]; exact h
  · cases h

theorem idleDue_of_idle (ends : taskEnd script.idle none = some t)
    (idle : script.idle.outcome = .idle) : script.idleDue = some t := by
  obtain ⟨alone, rfl⟩ := taskEnd_none ends
  rw [StopScript.idleDue, if_pos ⟨alone, idle⟩]

theorem idleDue_of_not_idle (other : script.idle.outcome ≠ .idle) : script.idleDue = none := by
  rw [StopScript.idleDue, if_neg fun h => other h.2]

theorem verdict_eq (script : StopScript) (reason : StopReason) (readerEnded : Bool) :
    (Coordinator.mk (.stopped reason script.listenerStop) readerEnded).result? =
      some (script.verdict reason) := by
  unfold Coordinator.result? StopScript.verdict
  cases script.listenerStop <;> rfl

/-! ## One event -/

theorem foldl_act (actions : List StopAction) (t : Nat) (r : ShutdownCourse) :
    (actions.foldl (act t) r).idleAt = r.idleAt ∧ (actions.foldl (act t) r).readerAt = r.readerAt ∧
      ((actions.foldl (act t) r).cancelledAt = r.cancelledAt ∨
        (actions.foldl (act t) r).cancelledAt = some t) ∧
      ((actions.foldl (act t) r).stopAskedAt = r.stopAskedAt ∨
        (actions.foldl (act t) r).stopAskedAt = some t) := by
  induction actions generalizing r with
  | nil => exact ⟨rfl, rfl, .inl rfl, .inl rfl⟩
  | cons action rest ih =>
    obtain ⟨idle, reader, cancelled, asked⟩ := ih (act t r action)
    cases action with
    | cancelReading => exact ⟨idle, reader, .inr (cancelled.elim id id), asked⟩
    | stopListener => exact ⟨idle, reader, cancelled, .inr (asked.elim id id)⟩

theorem happen_course (s : Shutdown) (t : Nat) (event : StopEvent) :
    (s.happen t event).course.idleAt = (s.course.note t event).idleAt ∧
      (s.happen t event).course.readerAt = (s.course.note t event).readerAt ∧
      ((s.happen t event).course.cancelledAt = s.course.cancelledAt ∨
        (s.happen t event).course.cancelledAt = some t) ∧
      ((s.happen t event).course.stopAskedAt = s.course.stopAskedAt ∨
        (s.happen t event).course.stopAskedAt = some t) := by
  have fields := foldl_act (s.coordinator.step event).2 t (s.course.note t event)
  obtain ⟨idle, reader, cancelled, asked⟩ := fields
  have noted : (s.course.note t event).cancelledAt = s.course.cancelledAt ∧
      (s.course.note t event).stopAskedAt = s.course.stopAskedAt := by
    cases event <;> exact ⟨rfl, rfl⟩
  rw [noted.1] at cancelled
  rw [noted.2] at asked
  unfold happen
  dsimp only
  cases (s.coordinator.step event).1.result? with
  | none => exact ⟨idle, reader, cancelled, asked⟩
  | some result => exact ⟨idle, reader, cancelled, asked⟩

theorem idleAt_of_note {r : ShutdownCourse} (h : (r.note t event).idleAt = none) :
    r.idleAt = none := by
  cases event with
  | idleEnded => cases h
  | signal | readerEnded | listenerEnded => exact h

theorem readerAt_of_note {r : ShutdownCourse} (h : (r.note t event).readerAt = none) :
    r.readerAt = none := by
  cases event with
  | readerEnded => cases h
  | signal | idleEnded | listenerEnded => exact h

/-- A task that ends after the reading was cancelled at a time did not end before, unless that was
due before. -/
theorem taskEnd_after {α : Type} {task : StopTask α} {before after : Option Nat} {t' : Nat}
    (cancelled : after = before ∨ after = some t) (ends : taskEnd task after = some t')
    (first : ∀ t', taskEnd task before = some t' → t ≤ t') : t ≤ t' := by
  rcases cancelled with rfl | rfl
  · exact first t' ends
  · by_cases waits : task.untilCancel = true
    · rw [taskEnd, if_pos waits] at ends
      have : t + task.delay = t' := Option.some.inj ends
      omega
    · rw [taskEnd, if_neg waits] at ends
      exact first t' (by rw [taskEnd, if_neg waits]; exact ends)

theorem due_after (first : ∀ t' event', s.Pends script t' event' → t ≤ t') {t' : Nat}
    {event' : StopEvent} (due : (s.happen t event).Pends script t' event') : t ≤ t' := by
  obtain ⟨idle, reader, cancelled, asked⟩ := happen_course s t event
  cases due with
  | signal silent comes =>
    have silent : s.signalled = false := (Bool.or_eq_false_iff.mp silent).1
    exact first t' _ (.signal silent comes)
  | idle runs ends =>
    have runs : s.course.idleAt = none := idleAt_of_note (idle ▸ runs)
    exact taskEnd_after cancelled ends fun t' ends => first t' _ (.idle runs ends)
  | reader runs ends =>
    have runs : s.course.readerAt = none := readerAt_of_note (reader ▸ runs)
    exact taskEnd_after cancelled ends fun t' ends => first t' _ (.reader runs ends)
  | listener stops ends =>
    rcases asked with same | now
    · exact first t' _ (.listener (same ▸ stops) ends)
    · have : t = _ := Option.some.inj (now.symm.trans stops)
      omega

/-- When the reading has been cancelled and the tracker has ended, the reader is waited for, or the
listener is asked to stop if the reader has ended too. -/
theorem Stands.drain {reason : StopReason} (signalled : Bool) {cancelled idle : Nat}
    {reader : Option Nat} (chosen : Chosen script cancelled reason) (cancelPast : cancelled ≤ t)
    (idlePast : idle ≤ t) (past : ∀ r, reader = some r → r ≤ t) (latest : cancelled = t ∨ idle = t)
    (coordinator : Coordinator) (ended : coordinator.readerEnded = reader.isSome) :
    Stands script t ⟨(coordinator.drainReader reason).1, signalled,
      (coordinator.drainReader reason).2.foldl (act t)
        ⟨some idle, some cancelled, reader, none, none⟩,
      (cancelled, .cancelReading) :: (coordinator.drainReader reason).2.map (t, ·)⟩ := by
  obtain ⟨phase, readerEnded⟩ := coordinator
  cases ended
  cases reader with
  | none => exact .drainingReader chosen cancelPast idlePast
  | some r =>
    have readerPast : r ≤ t := past r rfl
    have asked : t = max cancelled (max idle r) := by omega
    have closing : Stands script t _ := .closing signalled idle r chosen
    rw [← asked] at closing
    exact closing

theorem past_reader (reader : Option Nat) (past : ∀ r, reader = some r → r ≤ now) (le : now ≤ t) :
    ∀ r, reader = some r → r ≤ t :=
  fun r h => (past r h).trans le

/-- What happens first takes the shutdown from one phase to another, or leaves it where it is. -/
theorem Stands.happen (stands : Stands script now s) (going : s.coordinator.result? = none)
    (due : s.Pends script t event) (first : ∀ t' event', s.Pends script t' event' → t ≤ t')
    (le : now ≤ t) : Stands script t (s.happen t event) := by
  cases stands with
  | @watching reader past =>
    have past := past_reader reader past le
    cases due with
    | signal silent comes =>
      have chosen : Chosen script t .signal :=
        ⟨comes, fun t' idle => first t' _ (.idle rfl (taskEnd_of_idleDue idle none))⟩
      exact .drainingIdle reader chosen le_rfl past
    | idle runs ends =>
      by_cases idle : script.idle.outcome = .idle
      · have chosen : Chosen script t .idle :=
          ⟨idleDue_of_idle ends idle, fun t' comes => first t' _ (.signal rfl comes)⟩
        have drained := Stands.drain false chosen le_rfl le_rfl past (.inl rfl)
          ⟨.watching, reader.isSome⟩ rfl
        rw [idle]
        cases reader <;> exact drained
      · have other := idleDue_of_not_idle idle
        have awaiting := Stands.awaitingSignal reader other (le_refl t) past
        unfold Shutdown.happen Coordinator.step
        simp only [if_neg idle]
        exact awaiting
    | reader runs ends =>
      cases runs
      exact .watching (some t) fun r h => (Option.some.inj h).ge
    | listener stops => cases stops
  | @awaitingSignal idle reader other idlePast past =>
    have past := past_reader reader past le
    cases due with
    | signal silent comes =>
      have chosen : Chosen script t .signal := by
        refine ⟨comes, ?_⟩
        intro t' due
        rw [other] at due
        cases due
      have drained := Stands.drain true chosen le_rfl (idlePast.trans le) past
        (.inl rfl) ⟨.awaitingSignal, reader.isSome⟩ rfl
      cases reader <;> exact drained
    | idle runs => cases runs
    | reader runs ends =>
      cases runs
      exact .awaitingSignal (some t) other (idlePast.trans le)
        fun r h => (Option.some.inj h).ge
    | listener stops => cases stops
  | @drainingIdle cancelled reader chosen cancelPast past =>
    have past := past_reader reader past le
    cases due with
    | signal silent => cases silent
    | idle runs ends =>
      have drained := Stands.drain true chosen (cancelPast.trans le) le_rfl past
        (.inr rfl) ⟨.drainingIdle .signal, reader.isSome⟩ rfl
      cases reader <;> exact drained
    | reader runs ends =>
      cases runs
      exact .drainingIdle (some t) chosen (cancelPast.trans le)
        fun r h => (Option.some.inj h).ge
    | listener stops => cases stops
  | @drainingReader reason signalled cancelled idle chosen cancelPast idlePast =>
    cases due with
    | signal silent => exact .drainingReader chosen (cancelPast.trans le) (idlePast.trans le)
    | idle runs => cases runs
    | reader runs ends =>
      have closing : Stands script t _ := .closing signalled idle t chosen
      have asked : max cancelled (max idle t) = t := by omega
      rw [asked] at closing
      cases signalled <;> exact closing
    | listener stops => cases stops
  | @closing reason signalled cancelled idle reader chosen =>
    cases due with
    | signal silent => exact .closing (signalled || true) idle reader chosen
    | idle runs => cases runs
    | reader runs => cases runs
    | listener stops ends =>
      unfold Shutdown.happen Coordinator.step
      simp only [verdict_eq]
      cases signalled <;> exact .stopped chosen
  | stopped chosen =>
    rw [verdict_eq] at going
    cases going

/-- What holds of every shutdown that comes about: what is on record stands, and nothing was due
before now. -/
theorem Reached.stands (reached : Reached script s) :
    ∃ now, Stands script now s ∧ ∀ t event, s.Pends script t event → now ≤ t := by
  induction reached with
  | start =>
    refine ⟨0, .watching none ?_, ?_⟩
    · intro t h
      cases h
    · intro t event due
      exact Nat.zero_le t
  | @next s t event reached going due first ih =>
    obtain ⟨now, stands, later⟩ := ih
    have le : now ≤ t := later t event due
    exact ⟨t, stands.happen going due first le, fun t' event' due' => due_after first due'⟩

/-! ## All along, and at the end -/

theorem Chosen.trigger {reason : StopReason} (chosen : Chosen script t reason) :
    script.signalAt = some t ∨ script.idleDue = some t := by
  cases reason with
  | signal => exact .inl chosen.1
  | idle => exact .inr chosen.1

theorem Stands.ordered (stands : Stands script now s) : s.Ordered script := by
  cases stands with
  | watching | awaitingSignal =>
    refine ⟨rfl, rfl, ?_, ?_⟩ <;> intro t h <;> cases h
  | drainingIdle _ chosen | drainingReader chosen =>
    refine ⟨rfl, rfl, ?_, ?_⟩ <;> intro t h <;> cases h
    exact chosen.trigger
  | closing _ _ _ chosen | stopped chosen =>
    refine ⟨rfl, rfl, ?_, ?_⟩ <;> intro t h <;> cases h
    · exact chosen.trigger
    · exact ⟨_, _, _, rfl, rfl, rfl, rfl⟩

theorem Chosen.idle_of_lt {cancelled : Nat} {reason : StopReason}
    (chosen : Chosen script cancelled reason) (idle : script.idleDue = some t)
    (before : ∀ t', script.signalAt = some t' → t < t') : cancelled = t ∧ reason = .idle := by
  cases reason with
  | signal =>
    have := before cancelled chosen.1
    have := chosen.2 t idle
    omega
  | idle => exact ⟨Option.some.inj (chosen.1.symm.trans idle), rfl⟩

theorem Chosen.signal_of_lt {cancelled : Nat} {reason : StopReason}
    (chosen : Chosen script cancelled reason) (comes : script.signalAt = some t)
    (before : ∀ t', script.idleDue = some t' → t < t') : cancelled = t ∧ reason = .signal := by
  cases reason with
  | idle =>
    have := before cancelled chosen.1
    have := chosen.2 t comes
    omega
  | signal => exact ⟨Option.some.inj (chosen.1.symm.trans comes), rfl⟩

theorem verdict_error_iff (script : StopScript) (reason : StopReason) :
    (∃ e, script.verdict reason = .error e) ↔ script.listenerStop ≠ .clean := by
  unfold StopScript.verdict
  cases script.listenerStop <;> simp

theorem taskEnd_some {α : Type} (task : StopTask α) (cancelled : Nat) :
    ∃ t, taskEnd task (some cancelled) = some t := by
  unfold taskEnd
  split
  · exact ⟨_, rfl⟩
  · exact ⟨_, rfl⟩

/-- Nothing was a reason, and nothing was done. -/
theorem Settled.of_quiet (signal : script.signalAt = none) (idle : script.idleDue = none)
    (log : s.log = []) (ended : s.course.ended = none) : s.Settled script where
  idle t h := by
    rw [idle] at h
    cases h
  signal t h := by
    rw [signal] at h
    cases h
  never _ _ := ⟨log, ended⟩
  error_iff t result h := by
    rw [ended] at h
    cases h

/-- A shutdown in which nothing is due has stopped, or had no reason to. -/
theorem Stands.settled (stands : Stands script now s) (isOver : s.Over script) :
    s.Settled script := by
  cases stands with
  | watching =>
    rcases isOver with ended | quiet
    · cases ended
    have silent : script.signalAt = none :=
      Option.eq_none_iff_forall_ne_some.mpr fun t comes => quiet t _ (.signal rfl comes)
    have busy : script.idleDue = none := Option.eq_none_iff_forall_ne_some.mpr fun t due =>
      quiet t _ (.idle rfl (taskEnd_of_idleDue due none))
    exact .of_quiet silent busy rfl rfl
  | awaitingSignal _ busy =>
    rcases isOver with ended | quiet
    · cases ended
    have silent : script.signalAt = none :=
      Option.eq_none_iff_forall_ne_some.mpr fun t comes => quiet t _ (.signal rfl comes)
    exact .of_quiet silent busy rfl rfl
  | @drainingIdle cancelled =>
    rcases isOver with ended | quiet
    · cases ended
    obtain ⟨t, ends⟩ := taskEnd_some script.idle cancelled
    exact absurd (.idle rfl ends) (quiet t _)
  | @drainingReader _ _ cancelled =>
    rcases isOver with ended | quiet
    · cases ended
    obtain ⟨t, ends⟩ := taskEnd_some script.reader cancelled
    exact absurd (.reader rfl ends) (quiet t _)
  | closing =>
    rcases isOver with ended | quiet
    · cases ended
    exact absurd (.listener rfl rfl) (quiet _ _)
  | @stopped reason _ cancelled _ _ ended chosen =>
    refine ⟨?_, ?_, ?_, ?_⟩
    · intro t idle before
      obtain ⟨rfl, rfl⟩ := chosen.idle_of_lt idle before
      exact ⟨rfl, ended, rfl⟩
    · intro t comes before
      obtain ⟨rfl, rfl⟩ := chosen.signal_of_lt comes before
      exact ⟨rfl, ended, rfl⟩
    · intro silent busy
      rcases chosen.trigger with h | h
      · rw [silent] at h
        cases h
      · rw [busy] at h
        cases h
    · intro t result h
      obtain ⟨-, rfl⟩ := Prod.mk.inj (Option.some.inj h)
      exact verdict_error_iff script reason

/-! ## The shutdown that is followed -/

theorem listenerEnd_eq (script : StopScript) (asked : Nat) :
    listenerEnd script asked =
      (asked + min script.listener.1 script.patience.millisUp,
        .listenerEnded script.listenerStop) := by
  unfold listenerEnd StopScript.listenerStop
  dsimp only
  split
  · next le => rw [Nat.min_eq_left le]
  · next gt => rw [Nat.min_eq_right (Nat.le_of_not_le gt)]

theorem mem_pending_iff :
    (some t, event) ∈ pending script s.signalled s.course ↔ s.Pends script t event := by
  unfold pending
  simp only [List.mem_append, listenerEnd_eq]
  constructor
  · rintro (((h | h) | h) | h)
    · cases silent : s.signalled with
      | true => simp [silent] at h
      | false =>
        simp only [silent, Bool.false_eq_true, if_false, List.mem_singleton, Prod.mk.injEq] at h
        obtain ⟨comes, rfl⟩ := h
        exact .signal silent comes.symm
    · cases runs : s.course.idleAt with
      | some => simp [runs] at h
      | none =>
        simp only [runs, Option.isSome_none, Bool.false_eq_true, if_false, List.mem_singleton,
          Prod.mk.injEq] at h
        obtain ⟨ends, rfl⟩ := h
        exact .idle runs ends.symm
    · cases runs : s.course.readerAt with
      | some => simp [runs] at h
      | none =>
        simp only [runs, Option.isSome_none, Bool.false_eq_true, if_false, List.mem_singleton,
          Prod.mk.injEq] at h
        obtain ⟨ends, rfl⟩ := h
        exact .reader runs ends.symm
    · cases asked : s.course.stopAskedAt with
      | none => simp [asked] at h
      | some at' =>
        simp only [asked, List.mem_singleton, Prod.mk.injEq, Option.some.injEq] at h
        obtain ⟨ends, rfl⟩ := h
        exact .listener asked ends
  · rintro (⟨silent, comes⟩ | ⟨runs, ends⟩ | ⟨runs, ends⟩ | ⟨asked, ends⟩)
    · simp [silent, comes]
    · simp [runs, ends]
    · simp [runs, ends]
    · simp [asked, ends]

/-- The earlier of the best event so far and another that may have a time. -/
def sooner (best : Option (Nat × StopEvent)) : Option Nat × StopEvent → Option (Nat × StopEvent)
  | (none, _) => best
  | (some t, event) =>
    match best with
    | some b => if b.1 ≤ t then some b else some (t, event)
    | none => some (t, event)

theorem earliest_eq (events : List (Option Nat × StopEvent)) :
    earliest events = events.foldl sooner none := by
  unfold earliest
  congr 1
  funext best e
  obtain ⟨t, event⟩ := e
  cases t <;> cases best <;> rfl

theorem sooner_mem {best : Option (Nat × StopEvent)} {e : Option Nat × StopEvent}
    (h : sooner best e = some (t, event)) : best = some (t, event) ∨ e = (some t, event) := by
  obtain ⟨t₁, event₁⟩ := e
  cases t₁ with
  | none => exact .inl h
  | some t₁ =>
    cases best with
    | none => exact .inr (by cases h; rfl)
    | some b =>
      by_cases le : b.1 ≤ t₁
      · rw [sooner, if_pos le] at h
        exact .inl h
      · rw [sooner, if_neg le] at h
        exact .inr (by cases h; rfl)

theorem sooner_le {best : Option (Nat × StopEvent)} {e : Option Nat × StopEvent}
    (h : best = some (t, event) ∨ e = (some t, event)) :
    ∃ b, sooner best e = some b ∧ b.1 ≤ t := by
  obtain ⟨t₁, event₁⟩ := e
  rcases h with rfl | h
  · cases t₁ with
    | none => exact ⟨_, rfl, le_rfl⟩
    | some t₁ =>
      by_cases le : t ≤ t₁
      · exact ⟨(t, event), if_pos le, le_rfl⟩
      · exact ⟨(t₁, event₁), if_neg le, by omega⟩
  · cases h
    cases best with
    | none => exact ⟨_, rfl, le_rfl⟩
    | some b =>
      by_cases le : b.1 ≤ t
      · exact ⟨b, if_pos le, le⟩
      · exact ⟨(t, event), if_neg le, le_rfl⟩

theorem foldl_sooner_mem {events : List (Option Nat × StopEvent)}
    {best : Option (Nat × StopEvent)} (h : events.foldl sooner best = some (t, event)) :
    best = some (t, event) ∨ (some t, event) ∈ events := by
  induction events generalizing best with
  | nil => exact .inl h
  | cons e rest ih =>
    rcases ih h with now | later
    · rcases sooner_mem now with same | rfl
      · exact .inl same
      · exact .inr List.mem_cons_self
    · exact .inr (List.mem_cons_of_mem e later)

theorem foldl_sooner_le {events : List (Option Nat × StopEvent)} (best : Option (Nat × StopEvent))
    (h : best = some (t, event) ∨ (some t, event) ∈ events) :
    ∃ b, events.foldl sooner best = some b ∧ b.1 ≤ t := by
  induction events generalizing best t event with
  | nil =>
    rcases h with same | none
    · exact ⟨(t, event), same, le_rfl⟩
    · cases none
  | cons e rest ih =>
    by_cases later : (some t, event) ∈ rest
    · exact ih _ (.inr later)
    · have now : best = some (t, event) ∨ e = (some t, event) := by
        rcases h with same | mem
        · exact .inl same
        · rcases List.mem_cons.mp mem with same | mem
          · exact .inr same.symm
          · exact absurd mem later
      obtain ⟨b, sooner, le⟩ := sooner_le now
      obtain ⟨b', last, le'⟩ := ih _ (.inl sooner)
      exact ⟨b', last, le'.trans le⟩

theorem earliest_some (h : earliest (pending script s.signalled s.course) = some (t, event)) :
    s.Pends script t event ∧ ∀ t' event', s.Pends script t' event' → t ≤ t' := by
  rw [earliest_eq] at h
  rcases foldl_sooner_mem h with none | mem
  · cases none
  · refine ⟨mem_pending_iff.mp mem, fun t' event' due => ?_⟩
    obtain ⟨b, first, le⟩ := foldl_sooner_le none (.inr (mem_pending_iff.mpr due))
    rw [h] at first
    cases first
    exact le

theorem earliest_none (h : earliest (pending script s.signalled s.course) = none) (t : Nat)
    (event : StopEvent) : ¬ s.Pends script t event := by
  intro due
  rw [earliest_eq] at h
  obtain ⟨b, first, -⟩ := foldl_sooner_le none (.inr (mem_pending_iff.mpr due))
  rw [h] at first
  cases first

/-- How many events can still happen. -/
def left (s : Shutdown) : Nat :=
  (!s.signalled).toNat + s.course.idleAt.isNone.toNat + s.course.readerAt.isNone.toNat + 1

theorem left_happen (stands : Stands script now s) (due : s.Pends script t event)
    (going : (s.happen t event).coordinator.result? = none) : (s.happen t event).left < s.left := by
  obtain ⟨idle, reader, -, -⟩ := happen_course s t event
  have silent : (!(s.happen t event).signalled).toNat ≤ (!s.signalled).toNat := by
    show (!(s.signalled || event == .signal)).toNat ≤ (!s.signalled).toNat
    cases s.signalled with
    | true => exact le_rfl
    | false => exact Bool.toNat_le _
  unfold left
  rw [idle, reader]
  cases due with
  | signal unseen => simp [happen, note, unseen]
  | idle runs =>
    simp only [note, runs, Option.isNone_none, Option.isNone_some, Bool.toNat_true,
      Bool.toNat_false]
    omega
  | reader runs =>
    simp only [note, runs, Option.isNone_none, Option.isNone_some, Bool.toNat_true,
      Bool.toNat_false]
    omega
  | listener stops =>
    cases stands with
    | watching | awaitingSignal | drainingIdle | drainingReader => cases stops
    | closing => rw [happen, Coordinator.step, verdict_eq] at going; cases going
    | stopped => rw [happen, Coordinator.step, verdict_eq] at going; cases going

/-- With fuel for the events that can still happen, a run follows the shutdown to its end. -/
theorem run_reached (fuel : Nat) (reached : Reached script s) (enough : s.left ≤ fuel)
    (going : s.coordinator.result? = none) : ∃ s', Reached script s' ∧ s'.Over script ∧
      s'.course = run script fuel s.coordinator s.signalled s.course := by
  induction fuel generalizing s with
  | zero => simp [left] at enough
  | succ fuel ih =>
    obtain ⟨now, stands, -⟩ := reached.stands
    unfold run
    cases first : earliest (pending script s.signalled s.course) with
    | none => exact ⟨s, reached, .inr (earliest_none first), rfl⟩
    | some next =>
      obtain ⟨t, event⟩ := next
      obtain ⟨due, least⟩ := earliest_some first
      have reached' : Reached script (s.happen t event) := .next reached going due least
      cases result : (s.coordinator.step event).1.result? with
      | some result' =>
        refine ⟨s.happen t event, reached', .inl ?_, ?_⟩
        · exact Option.isSome_iff_exists.mpr ⟨_, result⟩
        · simp [happen, result]
      | none =>
        have fewer : (s.happen t event).left < s.left := left_happen stands due result
        obtain ⟨s', reached'', isOver, course⟩ := ih reached' (by omega) result
        refine ⟨s', reached'', isOver, course.trans ?_⟩
        simp [happen, result]

/-- Every shutdown goes in order, and comes to the end that its script gives it. -/
theorem shutdown_ordered (script : StopScript) :
    (∀ s, Reached script s → s.Ordered script) ∧
      (∀ s, Reached script s → s.Over script → s.Settled script) ∧
      ∃ s, Reached script s ∧ s.Over script ∧ s.course = follow script := by
  refine ⟨?_, ?_, ?_⟩
  · intro s reached
    obtain ⟨now, stands, -⟩ := reached.stands
    exact stands.ordered
  · intro s reached isOver
    obtain ⟨now, stands, -⟩ := reached.stands
    exact stands.settled isOver
  · exact run_reached 4 .start (le_refl 4) rfl

end Shutdown

end CheckAgent
