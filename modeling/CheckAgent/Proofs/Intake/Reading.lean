import CheckAgent.Proofs.Intake.Balance

/-!
# A reading from its start

A reading is whatever can happen to a reader, one thing after the other: the source, those who deal
with messages and whoever cancels take turns in any order (`Reads`).

**Main result** (`reading_orderly`). The messages that are received are handed on in turn, each
once. What is to become of a message is decided at most once, and it is deleted once if it is not to
come again, and not at all otherwise. The messages in flight and the reader hold no more slots than
there are. While it is not cancelled a reader goes on, whatever asking gives; cancelled, it asks no
more, and it has finished, or is about to, as soon as nothing is in flight and not before.

`MessageCourse` is the table that a message goes through; that it is kept by a step is said for all
messages at once (`MessageCourse.step`).
-/

namespace CheckAgent

def ReaderEvent.message? : ReaderEvent → Option Message
  | .received (.message m) => some m
  | _ => none

/-- What is to become of a message, if that is decided. -/
def ReaderEvent.disposition? (n : Nat) : ReaderEvent → Option Disposition
  | .processed n' disposition => if n' = n then some disposition else none
  | _ => none

/-- The message that is handed on, with its number. -/
def ReaderEffect.handed? : ReaderEffect → Option (Nat × Message)
  | .process n m => some (n, m)
  | _ => none

/-- The message that is deleted under a number. -/
def ReaderEffect.deletes? (n : Nat) : ReaderEffect → Option Message
  | .delete n' m => if n' = n then some m else none
  | _ => none

/-- A moment of a reading: what happened when, to which reader, and what came of it. -/
structure ReaderMoment where
  before : Reader
  time : Nat
  event : ReaderEvent
  after : Reader
  effects : List ReaderEffect

/-- The readings with a number of slots: their moments, and the reader after them. -/
inductive Reads (capacity : Nat) : List ReaderMoment → Reader → Prop where
  | start : Reads capacity [] (.start capacity)
  | next {log : List ReaderMoment} {r r' : Reader} (t : Nat) (event : ReaderEvent)
      {effects : List ReaderEffect} (reads : Reads capacity log r)
      (happens : r.step t event = some (r', effects)) :
      Reads capacity (log ++ [⟨r, t, event, r', effects⟩]) r'

namespace Reads

variable {capacity : Nat} {log : List ReaderMoment} {r : Reader}

/-- The messages that were received. -/
def received (log : List ReaderMoment) : List Message := log.filterMap (·.event.message?)

/-- The messages that were handed on, with their numbers. -/
def handed (log : List ReaderMoment) : List (Nat × Message) :=
  (log.flatMap (·.effects)).filterMap (·.handed?)

/-- What was to become of a message. -/
def dispositions (log : List ReaderMoment) (n : Nat) : List Disposition :=
  log.filterMap (·.event.disposition? n)

/-- The messages that were deleted under a number. -/
def deletions (log : List ReaderMoment) (n : Nat) : List Message :=
  (log.flatMap (·.effects)).filterMap (·.deletes? n)

/-- How far a message is: the message itself, what was to become of it, its deletions, and its place
among the messages in flight. -/
inductive MessageCourse : Option Message → List Disposition → List Message →
    Option (Message × Handling) → Prop where
  | unread : MessageCourse none [] [] none
  | processing (m : Message) : MessageCourse (some m) [] [] (some (m, .processing))
  | deleting (m : Message) : MessageCourse (some m) [.delete] [m] (some (m, .deleting))
  | kept (m : Message) : MessageCourse (some m) [.keep] [] none
  | deleted (m : Message) : MessageCourse (some m) [.delete] [m] none

/-- A reader that is not cancelled does what it is about to do, and ends up asking again. -/
def GoesOn (capacity : Nat) (r : Reader) : Prop :=
  match r.phase with
  | .seeking => ∀ t, ∃ r' effects, r.step t .seek = some (r', effects) ∧
      (r'.phase = .receiving ∧ effects = [.ask] ∨ r'.phase = .waiting ∧ effects = [])
  | .waiting => r.inFlight.size = capacity ∧ ∀ t event r' effects,
      r.step t event = some (r', effects) → r'.inFlight.size < r.inFlight.size →
        r'.phase = .receiving ∧ effects = [.ask]
  | .receiving => ∀ t what, ∃ r' effects, r.step t (.received what) = some (r', effects) ∧
      (r'.phase = .seeking ∨ r'.phase = .pausing)
  | .pausing => ∀ t, ∃ r', r.step t .rested = some (r', []) ∧ r'.phase = .seeking
  | .draining | .finished => False

/-- What holds of a reading with a number of slots. -/
structure Orderly (capacity : Nat) (log : List ReaderMoment) (r : Reader) : Prop where
  /-- The messages are handed on in the order in which they are received, each once. -/
  handed : handed log = (received log).zipIdx.map Prod.swap
  /-- A message is handed on as it is received. -/
  at_once : ∀ moment ∈ log, ∀ m, moment.event = .received (.message m) →
    moment.effects = [.process moment.before.next m]
  /-- A message is in flight until it has been dealt with, and deleted once if it is not to come
  again. -/
  course : ∀ n, MessageCourse (received log)[n]? (dispositions log n) (deletions log n)
    (r.inFlight.get? n)
  /-- Every slot is free, taken by a request in line, or held by a message or the reader. -/
  slots : r.slots.free + r.inLine + r.inFlight.size + r.held = capacity
  bounded : r.inFlight.size + r.held ≤ capacity
  /-- The reader asks for a message only while it holds a slot and has not been cancelled. -/
  asks : ∀ before moment after, log = before ++ moment :: after → .ask ∈ moment.effects →
    moment.after.held = 1 ∧ ∀ earlier ∈ before ++ [moment], earlier.event ≠ .cancel
  /-- What asking gives comes while the reader holds the slot and has not been cancelled. -/
  answers : ∀ before moment after what, log = before ++ moment :: after →
    moment.event = .received what →
      moment.before.held = 1 ∧ ∀ earlier ∈ before, earlier.event ≠ .cancel
  cancelled : r.cancelled = true ↔ ∃ moment ∈ log, moment.event = .cancel
  /-- While it is not cancelled, the reader goes on. -/
  goes_on : r.cancelled = false → GoesOn capacity r
  /-- The reader has not finished before it is cancelled and nothing is in flight. -/
  finished : r.phase = .finished → r.cancelled = true ∧ r.inFlight.size = 0
  /-- Then it holds no slot, and has finished or is about to. -/
  finishes : r.cancelled = true → r.inFlight.size = 0 → r.held = 0 ∧
    (r.phase = .finished ∨ r.phase = .seeking ∧
      ∀ t, ∃ r', r.step t .seek = some (r', []) ∧ r'.phase = .finished)

end Reads

/-! ## What a step does with the messages -/

namespace Reader

variable {r : Reader} {t : Nat} {event : ReaderEvent} {out : Reader × List ReaderEffect}

/-- What becomes of the messages in flight. -/
inductive Moves (r : Reader) : ReaderEvent → Reader × List ReaderEffect → Prop where
  /-- Nothing does. -/
  | beside {event : ReaderEvent} {out : Reader × List ReaderEffect} (silent : event.message? = none)
      (undecided : ∀ n, event.disposition? n = none) (inFlight : out.1.inFlight = r.inFlight)
      (next : out.1.next = r.next) (effects : out.2 = [] ∨ out.2 = [.ask]) : Moves r event out
  | reads (m : Message) {out : Reader × List ReaderEffect}
      (inFlight : out.1.inFlight = r.inFlight.set r.next (m, .processing))
      (next : out.1.next = r.next + 1) (effects : out.2 = [.process r.next m]) :
      Moves r (.received (.message m)) out
  | hands (n : Nat) (m : Message) {out : Reader × List ReaderEffect}
      (busy : r.inFlight.get? n = some (m, .processing))
      (inFlight : out.1.inFlight = r.inFlight.set n (m, .deleting))
      (next : out.1.next = r.next) (effects : out.2 = [.delete n m]) :
      Moves r (.processed n .delete) out
  | keeps (n : Nat) (m : Message) {out : Reader × List ReaderEffect}
      (busy : r.inFlight.get? n = some (m, .processing))
      (inFlight : out.1.inFlight = r.inFlight.erase n)
      (next : out.1.next = r.next) (effects : out.2 = [] ∨ out.2 = [.ask]) :
      Moves r (.processed n .keep) out
  | deleted (n : Nat) (m : Message) {out : Reader × List ReaderEffect}
      (busy : r.inFlight.get? n = some (m, .deleting))
      (inFlight : out.1.inFlight = r.inFlight.erase n)
      (next : out.1.next = r.next) (effects : out.2 = [] ∨ out.2 = [.ask]) :
      Moves r (.deleted n) out

theorem drain_beside (r : Reader) : r.drain.inFlight = r.inFlight ∧ r.drain.next = r.next ∧
    r.drain.cancelled = r.cancelled := by
  unfold drain
  obtain ⟨slots, met⟩ := r.slots.request forAll r.slots.all
  cases met <;> exact ⟨rfl, rfl, rfl⟩

theorem cancel_beside (r : Reader) : r.cancel.inFlight = r.inFlight ∧ r.cancel.next = r.next ∧
    r.cancel.cancelled = true := by
  unfold cancel
  cases r.phase with
  | waiting | receiving | pausing => exact drain_beside _
  | seeking | draining | finished => exact ⟨rfl, rfl, rfl⟩

theorem seek_beside (r : Reader) : r.seek.1.inFlight = r.inFlight ∧ r.seek.1.next = r.next ∧
    r.seek.1.cancelled = r.cancelled ∧ (r.seek.2 = [] ∨ r.seek.2 = [.ask]) := by
  by_cases cancelled : r.cancelled = true
  · obtain ⟨activity, drains⟩ := seek_of_cancelled cancelled
    obtain ⟨inFlight, next, same⟩ := drain_beside { r with activity }
    rw [drains]
    exact ⟨inFlight, next, same, .inl rfl⟩
  · unfold seek
    cases r.slots.tryTake with
    | none =>
      dsimp only
      rw [if_neg cancelled]
      exact ⟨rfl, rfl, rfl, .inl rfl⟩
    | some slots =>
      dsimp only
      rw [if_neg cancelled]
      exact ⟨rfl, rfl, rfl, .inr rfl⟩

theorem giveBack_moves (r : Reader) (t n : Nat) :
    (r.giveBack t n).1.inFlight = r.inFlight.erase n ∧ (r.giveBack t n).1.next = r.next ∧
      (r.giveBack t n).1.cancelled = r.cancelled ∧
      ((r.giveBack t n).2 = [] ∨ (r.giveBack t n).2 = [.ask]) := by
  unfold giveBack
  obtain ⟨slots, met⟩ := r.slots.release 1
  dsimp only
  by_cases one : forOne ∈ met
  · rw [if_pos one]
    exact ⟨rfl, rfl, rfl, .inr rfl⟩
  · by_cases all : forAll ∈ met
    · rw [if_neg one, if_pos all]
      exact ⟨rfl, rfl, rfl, .inl rfl⟩
    · rw [if_neg one, if_neg all]
      exact ⟨rfl, rfl, rfl, .inl rfl⟩

theorem Steps.moves (steps : r.Steps t event out) : r.Moves event out := by
  cases steps with
  | seek phase =>
    obtain ⟨inFlight, next, -, effects⟩ := seek_beside r
    exact .beside rfl (fun _ => rfl) inFlight next effects
  | received what phase =>
    cases what with
    | message m => exact .reads m rfl rfl rfl
    | nothing | failed => exact .beside rfl (fun _ => rfl) rfl rfl (.inl rfl)
  | rested phase => exact .beside rfl (fun _ => rfl) rfl rfl (.inl rfl)
  | cancel =>
    obtain ⟨inFlight, next, -⟩ := cancel_beside r
    exact .beside rfl (fun _ => rfl) inFlight next (.inl rfl)
  | hands n m busy => exact .hands n m busy rfl rfl rfl
  | keeps n m busy =>
    obtain ⟨inFlight, next, -, effects⟩ := giveBack_moves r t n
    exact .keeps n m busy inFlight next effects
  | deleted n m busy =>
    obtain ⟨inFlight, next, -, effects⟩ := giveBack_moves r t n
    exact .deleted n m busy inFlight next effects

theorem Steps.cancelled_iff (steps : r.Steps t event out) :
    out.1.cancelled = true ↔ r.cancelled = true ∨ event = .cancel := by
  cases steps with
  | seek phase => simp [(seek_beside r).2.2.1]
  | received what phase => cases what <;> simp [receive]
  | rested phase => simp
  | cancel => simp [(cancel_beside r).2.2]
  | hands n m busy => simp
  | keeps n m busy => simp [(giveBack_moves r t n).2.2.1]
  | deleted n m busy => simp [(giveBack_moves r t n).2.2.1]

theorem Steps.of_received {what : Received} (steps : r.Steps t (.received what) out) :
    r.phase = .receiving ∧ out = r.receive t what := by
  cases steps with
  | received what phase => exact ⟨phase, rfl⟩

/-- A reader that waits asks for a message as soon as one has been dealt with. -/
theorem Steps.wakes {capacity : Nat} (steps : r.Steps t event out)
    (balanced : r.Balanced capacity) (phase : r.phase = .waiting)
    (fewer : out.1.inFlight.size < r.inFlight.size) :
    out.1.phase = .receiving ∧ out.2 = [.ask] := by
  cases steps with
  | seek other | received what other | rested other =>
    rw [phase] at other
    cases other
  | cancel =>
    rw [(cancel_beside r).1] at fewer
    omega
  | hands n m busy =>
    have same : (r.inFlight.set n (m, .deleting)).size = r.inFlight.size :=
      Table.size_set_of_some busy _
    dsimp only at fewer
    omega
  | keeps n m busy => exact giveBack_of_waiting balanced phase t n
  | deleted n m busy => exact giveBack_of_waiting balanced phase t n

end Reader

namespace Reads

open Reader

variable {capacity : Nat} {log : List ReaderMoment} {r : Reader}

/-! ## One more moment -/

variable (log) (moment : ReaderMoment)

theorem received_snoc :
    received (log ++ [moment]) = received log ++ moment.event.message?.toList := by
  cases h : moment.event.message? <;> simp [received, h]

theorem handed_snoc :
    handed (log ++ [moment]) = handed log ++ moment.effects.filterMap (·.handed?) := by
  simp [handed]

theorem dispositions_snoc (n : Nat) :
    dispositions (log ++ [moment]) n =
      dispositions log n ++ (moment.event.disposition? n).toList := by
  cases h : moment.event.disposition? n <;> simp [dispositions, h]

theorem deletions_snoc (n : Nat) :
    deletions (log ++ [moment]) n = deletions log n ++ moment.effects.filterMap (·.deletes? n) := by
  simp [deletions]

variable {log} {moment}

theorem deletes?_of_asks {effects : List ReaderEffect} (asks : effects = [] ∨ effects = [.ask])
    (n : Nat) : effects.filterMap (·.deletes? n) = [] := by
  rcases asks with rfl | rfl <;> rfl

theorem MessageCourse.place_of_unread {decided : List Disposition} {deleted : List Message}
    {place : Option (Message × Handling)} (course : MessageCourse none decided deleted place) :
    place = none := by
  cases course
  rfl

/-- A step takes each message from one row of its table to another, or leaves it where it is. -/
theorem MessageCourse.step {t : Nat} {event : ReaderEvent} {r' : Reader}
    {effects : List ReaderEffect} (moves : r.Moves event (r', effects))
    (next : r.next = (received log).length) {n : Nat}
    (course : MessageCourse (received log)[n]? (dispositions log n) (deletions log n)
      (r.inFlight.get? n)) :
    MessageCourse (received (log ++ [⟨r, t, event, r', effects⟩]))[n]?
      (dispositions (log ++ [⟨r, t, event, r', effects⟩]) n)
      (deletions (log ++ [⟨r, t, event, r', effects⟩]) n) (r'.inFlight.get? n) := by
  rw [received_snoc, dispositions_snoc, deletions_snoc]
  generalize deletions log n = deletions at course ⊢
  generalize dispositions log n = dispositions at course ⊢
  dsimp only
  cases moves with
  | beside silent undecided inFlight _ asks =>
    dsimp only at inFlight
    rw [silent, undecided, inFlight, deletes?_of_asks asks]
    simpa using course
  | reads m inFlight _ process =>
    dsimp only at inFlight process
    rw [inFlight, process, Table.get?_set, next]
    by_cases new : n = (received log).length
    · subst new
      rw [List.getElem?_eq_none (Nat.le_refl _)] at course
      generalize r.inFlight.get? (received log).length = place at course
      cases course
      simpa [ReaderEvent.message?, ReaderEvent.disposition?, ReaderEffect.deletes?] using
        MessageCourse.processing m
    · rw [if_neg new]
      have same : (received log ++ [m])[n]? = (received log)[n]? := by
        rcases Nat.lt_or_ge n (received log).length with lt | ge
        · exact List.getElem?_append_left lt
        · rw [List.getElem?_eq_none ge, List.getElem?_eq_none]
          rw [List.length_append, List.length_singleton]
          omega
      simpa only [ReaderEvent.message?, ReaderEvent.disposition?, Option.toList_some,
        Option.toList_none, List.append_nil, List.filterMap_cons, List.filterMap_nil,
        ReaderEffect.deletes?, same] using course
  | hands n' m busy inFlight _ deletes =>
    dsimp only at inFlight deletes
    rw [inFlight, deletes, Table.get?_set]
    by_cases same : n' = n
    · subst same
      rw [busy] at course
      generalize received log = messages at course ⊢
      generalize got : messages[n']? = message at course
      cases course
      simpa [ReaderEvent.message?, ReaderEvent.disposition?, ReaderEffect.deletes?, got] using
        MessageCourse.deleting m
    · rw [if_neg (Ne.symm same)]
      simpa [ReaderEvent.message?, ReaderEvent.disposition?, ReaderEffect.deletes?, same] using
        course
  | keeps n' m busy inFlight _ asks =>
    dsimp only at inFlight
    rw [inFlight, deletes?_of_asks asks, Table.get?_erase]
    by_cases same : n' = n
    · subst same
      rw [busy] at course
      generalize received log = messages at course ⊢
      generalize got : messages[n']? = message at course
      cases course
      simpa [ReaderEvent.message?, ReaderEvent.disposition?, got] using MessageCourse.kept m
    · rw [if_neg (Ne.symm same)]
      simpa [ReaderEvent.message?, ReaderEvent.disposition?, same] using course
  | deleted n' m busy inFlight _ asks =>
    dsimp only at inFlight
    rw [inFlight, deletes?_of_asks asks, Table.get?_erase]
    by_cases same : n' = n
    · subst same
      rw [busy] at course
      generalize received log = messages at course ⊢
      generalize got : messages[n']? = message at course
      cases course
      simpa [ReaderEvent.message?, ReaderEvent.disposition?, got] using MessageCourse.deleted m
    · rw [if_neg (Ne.symm same)]
      simpa [ReaderEvent.message?, ReaderEvent.disposition?] using course

/-! ## The whole reading -/

/-- What a reading keeps from moment to moment. -/
structure Kept (capacity : Nat) (log : List ReaderMoment) (r : Reader) : Prop where
  balanced : r.Balanced capacity
  next : r.next = (received log).length
  handed : handed log = (received log).zipIdx.map Prod.swap
  course : ∀ n, MessageCourse (received log)[n]? (dispositions log n) (deletions log n)
    (r.inFlight.get? n)
  cancelled : r.cancelled = true ↔ ∃ moment ∈ log, moment.event = .cancel

namespace Kept

variable {t : Nat} {event : ReaderEvent} {r' : Reader} {effects : List ReaderEffect}

theorem fresh (kept : Kept capacity log r) : r.inFlight.get? r.next = none := by
  have course := kept.course r.next
  rw [List.getElem?_eq_none (Nat.le_of_eq kept.next.symm)] at course
  exact course.place_of_unread

theorem handed_step (kept : Kept capacity log r) (moves : r.Moves event (r', effects)) :
    r'.next = (received log ++ event.message?.toList).length ∧
      Reads.handed log ++ effects.filterMap (·.handed?) =
        (received log ++ event.message?.toList).zipIdx.map Prod.swap := by
  have next := kept.next
  have handed := kept.handed
  cases moves with
  | beside silent _ _ same asks =>
    dsimp only at same
    rw [silent, same, next, handed]
    rcases asks with h | h <;> simp only at h <;> simp [h, ReaderEffect.handed?]
  | reads m _ more process =>
    dsimp only at more process
    rw [more, process, next, handed]
    simp [ReaderEvent.message?, ReaderEffect.handed?, List.zipIdx_append]
  | hands n m _ _ same deletes =>
    dsimp only at same deletes
    rw [same, deletes, next, handed]
    simp [ReaderEvent.message?, ReaderEffect.handed?]
  | keeps n m _ _ same asks | deleted n m _ _ same asks =>
    dsimp only at same
    rw [same, next, handed]
    rcases asks with h | h <;> simp only at h <;>
      simp [h, ReaderEvent.message?, ReaderEffect.handed?]

theorem step (bounded : capacity < 2 ^ 32) (kept : Kept capacity log r)
    (happens : r.step t event = some (r', effects)) :
    Kept capacity (log ++ [⟨r, t, event, r', effects⟩]) r' := by
  have steps := steps_of_step happens
  obtain ⟨next, handed⟩ := kept.handed_step steps.moves
  refine ⟨(kept.balanced.step bounded kept.fresh steps).1, ?_, ?_, fun n => ?_, ?_⟩
  · rw [received_snoc]
    exact next
  · rw [received_snoc, handed_snoc]
    exact handed
  · exact (kept.course n).step steps.moves kept.next
  · rw [steps.cancelled_iff, kept.cancelled]
    simp [or_and_right, exists_or]

end Kept

theorem kept (bounded : capacity < 2 ^ 32) (reads : Reads capacity log r) :
    Kept capacity log r := by
  induction reads with
  | start =>
    exact ⟨start_balanced capacity, rfl, rfl, fun n => .unread, by simp [Reader.start]⟩
  | next t event _ happens ih => exact ih.step bounded happens

theorem split (reads : Reads capacity log r) {before after : List ReaderMoment}
    {moment : ReaderMoment} (log_eq : log = before ++ moment :: after) :
    Reads capacity before moment.before ∧
      moment.before.step moment.time moment.event = some (moment.after, moment.effects) := by
  induction reads generalizing after with
  | start => simp at log_eq
  | @next log r r' t event effects reads happens ih =>
    rcases List.eq_nil_or_concat after with rfl | ⟨rest, last, rfl⟩
    · obtain ⟨rfl, h⟩ := List.append_inj' log_eq rfl
      cases h
      exact ⟨reads, happens⟩
    · have : log ++ [⟨r, t, event, r', effects⟩] = (before ++ moment :: rest) ++ [last] := by
        rw [log_eq]
        simp
      exact ih (List.append_inj' this rfl).1

/-- While it is not cancelled, a reader goes on. -/
theorem Kept.goes_on (kept : Kept capacity log r) (going : r.cancelled = false) :
    GoesOn capacity r := by
  have account := kept.balanced.of_phase
  unfold GoesOn
  cases phase : r.phase with
  | seeking =>
    intro t
    exact ⟨r.seek.1, r.seek.2, if_pos phase, seek_cases going⟩
  | waiting =>
    rw [phase] at account
    refine ⟨account.2.1, fun t event r' effects happens fewer => ?_⟩
    exact (steps_of_step happens).wakes kept.balanced phase fewer
  | receiving =>
    intro t what
    refine ⟨(r.receive t what).1, (r.receive t what).2, if_pos phase, ?_⟩
    cases what with
    | message m => exact .inl rfl
    | nothing | failed => exact .inr rfl
  | pausing =>
    intro t
    exact ⟨{ r with phase := .seeking }, if_pos phase, rfl⟩
  | draining =>
    rw [phase] at account
    rw [account.1] at going
    cases going
  | finished =>
    rw [phase] at account
    rw [account.1] at going
    cases going

theorem Kept.finishes (bounded : capacity < 2 ^ 32) (kept : Kept capacity log r)
    (cancelled : r.cancelled = true) (idle : r.inFlight.size = 0) : r.held = 0 ∧
      (r.phase = .finished ∨ r.phase = .seeking ∧
        ∀ t, ∃ r', r.step t .seek = some (r', []) ∧ r'.phase = .finished) := by
  have account := kept.balanced.of_phase
  unfold held
  cases phase : r.phase with
  | seeking =>
    obtain ⟨finished, quiet⟩ := seek_finishes bounded kept.balanced phase cancelled idle
    refine ⟨rfl, .inr ⟨rfl, fun t => ⟨r.seek.1, ?_, finished⟩⟩⟩
    rw [← quiet]
    exact if_pos phase
  | finished => exact ⟨rfl, .inl rfl⟩
  | waiting =>
    rw [phase] at account
    rw [account.1] at cancelled
    cases cancelled
  | receiving | pausing =>
    rw [phase] at account
    rw [account] at cancelled
    cases cancelled
  | draining =>
    rw [phase] at account
    omega

/-- **The reading of the queue.** -/
theorem reading_orderly (bounded : capacity < 2 ^ 32) (reads : Reads capacity log r) :
    Orderly capacity log r := by
  have kept := reads.kept bounded
  have sum := kept.balanced.sum
  have account := kept.balanced.of_phase
  refine {
    handed := kept.handed
    at_once := ?at_once
    course := kept.course
    slots := sum
    bounded := by omega
    asks := ?asks
    answers := ?answers
    cancelled := kept.cancelled
    goes_on := kept.goes_on
    finished := ?finished
    finishes := kept.finishes bounded }
  case at_once =>
    intro moment mem m received
    obtain ⟨before, after, log_eq⟩ := List.append_of_mem mem
    have steps := steps_of_step (reads.split log_eq).2
    rw [received] at steps
    exact congrArg Prod.snd steps.of_received.2
  case asks =>
    intro before moment after log_eq asks
    obtain ⟨reads, happens⟩ := reads.split log_eq
    have kept := reads.kept bounded
    have steps := steps_of_step happens
    obtain ⟨going, phase⟩ := (kept.balanced.step bounded kept.fresh steps).2 asks
    refine ⟨if_pos phase, ?_⟩
    intro earlier mem cancels
    rcases List.mem_append.mp mem with mem | mem
    · have cancelled := kept.cancelled.mpr ⟨earlier, mem, cancels⟩
      rw [going] at cancelled
      cases cancelled
    · rw [List.mem_singleton.mp mem] at cancels
      rw [cancels] at happens
      rw [← (Prod.mk.inj (Option.some.inj happens)).2] at asks
      cases asks
  case answers =>
    intro before moment after what log_eq received
    obtain ⟨reads, happens⟩ := reads.split log_eq
    have kept := reads.kept bounded
    have steps := steps_of_step happens
    rw [received] at steps
    have phase := steps.of_received.1
    have going := kept.balanced.of_phase
    rw [phase] at going
    refine ⟨if_pos phase, ?_⟩
    intro earlier mem cancels
    have cancelled := kept.cancelled.mpr ⟨earlier, mem, cancels⟩
    rw [going] at cancelled
    cases cancelled
  case finished =>
    intro phase
    rw [phase] at account
    exact account

/-- A reader with one slot reads a message, which is deleted, and finishes when it is cancelled
while it asks for another. -/
theorem orderly_one_message : ∃ log r, 1 < 2 ^ 32 ∧ Reads 1 log r ∧
    received log = [⟨"m", "text"⟩] ∧ deletions log 0 = [⟨"m", "text"⟩] ∧ r.phase = .finished ∧
      Orderly 1 log r := by
  have reads : Reads 1 _ _ :=
    .next 9 .cancel (.next 8 (.deleted 0) (.next 6 (.processed 0 .delete) (.next 5 .seek
      (.next 5 (.received (.message ⟨"m", "text"⟩)) (.next 0 .seek .start rfl)
        rfl) rfl) rfl) rfl) rfl
  exact ⟨_, _, by decide, reads, rfl, rfl, rfl, reading_orderly (by decide) reads⟩

end Reads

end CheckAgent
