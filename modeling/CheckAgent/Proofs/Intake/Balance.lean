import Mathlib.Algebra.Ring.Nat
import CheckAgent.Intake.Reader

/-!
# The slots of a reader

Between them, the messages in flight, the reader, the requests in line and the free slots **account
for every slot**, each for one (`Balanced`). The reader holds a slot while it asks for a message and
at no other time; when it waits for a slot all slots are with messages, and when it waits for all of
them some still are. What keeps the account is said once, for all steps (`Balanced.step`).

A request for all slots asks for no more than a number of 32 bits can hold, so the capacity has to
be such a number.
-/

namespace CheckAgent

namespace Reader

variable {capacity : Nat} {r : Reader} {t : Nat} {event : ReaderEvent}
  {out : Reader × List ReaderEffect}

/-- The slots that the reader holds itself. -/
def held (r : Reader) : Nat := if r.phase = .receiving then 1 else 0

/-- The slots that the requests in line have taken. -/
def inLine (r : Reader) : Nat := (r.slots.line.map (·.taken)).sum

/-- What can happen to a reader, and what becomes of it and is done then. -/
inductive Steps (r : Reader) (t : Nat) : ReaderEvent → Reader × List ReaderEffect → Prop where
  | seek (phase : r.phase = .seeking) : Steps r t .seek r.seek
  | received (what : Received) (phase : r.phase = .receiving) :
      Steps r t (.received what) (r.receive t what)
  | rested (phase : r.phase = .pausing) : Steps r t .rested ({ r with phase := .seeking }, [])
  | cancel : Steps r t .cancel (r.cancel, [])
  | hands (n : Nat) (m : Message) (busy : r.inFlight.get? n = some (m, .processing)) :
      Steps r t (.processed n .delete)
        ({ r with inFlight := r.inFlight.set n (m, .deleting) }, [.delete n m])
  | keeps (n : Nat) (m : Message) (busy : r.inFlight.get? n = some (m, .processing)) :
      Steps r t (.processed n .keep) (r.giveBack t n)
  | deleted (n : Nat) (m : Message) (busy : r.inFlight.get? n = some (m, .deleting)) :
      Steps r t (.deleted n) (r.giveBack t n)

theorem steps_of_step (happens : r.step t event = some out) : r.Steps t event out := by
  cases event with
  | seek =>
    obtain ⟨phase, same⟩ := Option.ite_none_right_eq_some.mp happens
    cases same
    exact .seek phase
  | received what =>
    obtain ⟨phase, same⟩ := Option.ite_none_right_eq_some.mp happens
    cases same
    exact .received what phase
  | rested =>
    obtain ⟨phase, same⟩ := Option.ite_none_right_eq_some.mp happens
    cases same
    exact .rested phase
  | cancel =>
    cases happens
    exact .cancel
  | processed n disposition =>
    simp only [step] at happens
    split at happens
    · next m busy =>
      cases disposition with
      | delete =>
        cases happens
        exact .hands n m busy
      | keep =>
        cases happens
        exact .keeps n m busy
    · cases happens
  | deleted n =>
    simp only [step] at happens
    split at happens
    · next m busy =>
      cases happens
      exact .deleted n m busy
    · cases happens

/-- How the slots are divided in each phase, with a number of messages in flight. -/
inductive Balance (capacity : Nat) : ReaderPhase → (cancelled : Bool) → Slots → Nat → Prop where
  | seeking {cancelled : Bool} {free busy : Nat} (sum : free + busy = capacity) :
      Balance capacity .seeking cancelled ⟨capacity, free, []⟩ busy
  | waiting : Balance capacity .waiting false ⟨capacity, 0, [⟨forOne, 1, 0⟩]⟩ capacity
  | receiving {free busy : Nat} (sum : free + busy + 1 = capacity) :
      Balance capacity .receiving false ⟨capacity, free, []⟩ busy
  | pausing {free busy : Nat} (sum : free + busy = capacity) :
      Balance capacity .pausing false ⟨capacity, free, []⟩ busy
  | draining {taken busy : Nat} (some : 0 < busy) (sum : taken + busy = capacity) :
      Balance capacity .draining true ⟨capacity, 0, [⟨forAll, capacity, taken⟩]⟩ busy
  | finished : Balance capacity .finished true ⟨capacity, capacity, []⟩ 0

/-- The slots of a reader are divided as its phase has it. -/
def Balanced (capacity : Nat) (r : Reader) : Prop :=
  Balance capacity r.phase r.cancelled r.slots r.inFlight.size

theorem start_balanced (capacity : Nat) : (start capacity).Balanced capacity :=
  .seeking (Nat.add_zero capacity)

/-! ## What the account says -/

/-- What each phase says of the cancellation, the slots and the messages in flight. -/
theorem Balanced.of_phase (balanced : r.Balanced capacity) :
    match r.phase with
    | .seeking => ∃ free, r.slots = ⟨capacity, free, []⟩ ∧ free + r.inFlight.size = capacity
    | .waiting => r.cancelled = false ∧ r.inFlight.size = capacity ∧
        r.slots = ⟨capacity, 0, [⟨forOne, 1, 0⟩]⟩
    | .receiving | .pausing => r.cancelled = false
    | .draining => r.cancelled = true ∧ 0 < r.inFlight.size
    | .finished => r.cancelled = true ∧ r.inFlight.size = 0 := by
  obtain ⟨phase, cancelled, slots, activity, inFlight, next⟩ := r
  unfold Balanced at balanced
  dsimp only at balanced ⊢
  generalize inFlight.size = busy at balanced ⊢
  cases balanced with
  | seeking sum => exact ⟨_, rfl, sum⟩
  | waiting => exact ⟨rfl, rfl, rfl⟩
  | receiving | pausing => rfl
  | draining some => exact ⟨rfl, some⟩
  | finished => exact ⟨rfl, rfl⟩

theorem Balanced.sum (balanced : r.Balanced capacity) :
    r.slots.free + r.inLine + r.inFlight.size + r.held = capacity := by
  obtain ⟨phase, cancelled, slots, activity, inFlight, next⟩ := r
  unfold Balanced at balanced
  unfold inLine held
  dsimp only at balanced ⊢
  generalize inFlight.size = busy at balanced ⊢
  cases balanced with
  | seeking sum | receiving sum | pausing sum => simpa using sum
  | waiting => simp
  | draining some sum => simpa using sum
  | finished => simp

/-! ## What keeps the account -/

theorem all_eq {free : Nat} {line : List Waiter} (bounded : capacity < 2 ^ 32) :
    (Slots.mk capacity free line).all = capacity := by
  have : capacity ≤ Nat.pow 2 32 - 1 := by
    show capacity ≤ 2 ^ 32 - 1
    omega
  exact Nat.min_eq_left this

theorem finish_balanced {taken : Nat} (bounded : capacity < 2 ^ 32)
    (slots : r.slots = ⟨capacity, taken, []⟩) (cancelled : r.cancelled = true)
    (none : taken = 0) (idle : r.inFlight.size = 0) : r.finish.Balanced capacity := by
  unfold Balanced finish
  rw [slots, all_eq bounded, cancelled, idle, none]
  simp only [Slots.release, Slots.serve, Nat.zero_add]
  exact .finished

theorem drain_balanced {free : Nat} (bounded : capacity < 2 ^ 32)
    (slots : r.slots = ⟨capacity, free, []⟩) (cancelled : r.cancelled = true)
    (sum : free + r.inFlight.size = capacity) : r.drain.Balanced capacity := by
  unfold drain
  rw [slots, all_eq bounded]
  by_cases idle : capacity ≤ free
  · simp only [Slots.request, if_pos idle, if_true]
    exact finish_balanced bounded rfl cancelled (by omega) (show r.inFlight.size = 0 by omega)
  · simp only [Slots.request, if_neg idle, Bool.false_eq_true, if_false, List.nil_append]
    unfold Balanced
    dsimp only
    rw [cancelled]
    exact .draining (by omega) sum

theorem cancel_balanced (bounded : capacity < 2 ^ 32) (balanced : r.Balanced capacity) :
    r.cancel.Balanced capacity := by
  obtain ⟨phase, cancelled, slots, activity, inFlight, next⟩ := r
  unfold Balanced at balanced
  dsimp only at balanced
  generalize size : inFlight.size = busy at balanced
  cases balanced with
  | seeking sum =>
    unfold Balanced
    exact .seeking (size ▸ sum)
  | waiting =>
    have freed : (Slots.withdraw ⟨capacity, 0, [⟨forOne, 1, 0⟩]⟩ forOne).1 =
        ⟨capacity, 0, []⟩ := rfl
    unfold cancel
    dsimp only
    rw [freed]
    exact drain_balanced bounded rfl rfl (by rw [size]; omega)
  | @receiving free busy sum =>
    have freed : (Slots.release ⟨capacity, free, []⟩ 1).1 = ⟨capacity, free + 1, []⟩ := rfl
    unfold cancel
    dsimp only
    rw [freed]
    exact drain_balanced bounded rfl rfl (by rw [size]; omega)
  | pausing sum => exact drain_balanced bounded rfl rfl (by rw [size]; exact sum)
  | draining some sum =>
    unfold Balanced
    exact .draining (size ▸ some) (size ▸ sum)
  | finished =>
    unfold Balanced cancel
    dsimp only
    rw [size]
    exact .finished

theorem seek_of_cancelled (cancelled : r.cancelled = true) :
    ∃ activity, r.seek = ({ r with activity }.drain, []) := by
  unfold seek
  cases r.slots.tryTake with
  | none => exact ⟨r.activity.waiting, if_pos cancelled⟩
  | some slots => exact ⟨r.activity, if_pos cancelled⟩

theorem seek_balanced (bounded : capacity < 2 ^ 32) (balanced : r.Balanced capacity)
    (phase : r.phase = .seeking) : r.seek.1.Balanced capacity := by
  obtain ⟨_, cancelled, slots, activity, inFlight, next⟩ := r
  cases phase
  unfold Balanced at balanced
  dsimp only at balanced
  generalize size : inFlight.size = busy at balanced
  cases balanced with
  | @seeking _ free _ sum =>
    cases cancelled with
    | true =>
      obtain ⟨activity', drains⟩ := seek_of_cancelled (r := ⟨.seeking, true, ⟨capacity, free, []⟩,
        activity, inFlight, next⟩) rfl
      rw [drains]
      exact drain_balanced bounded rfl rfl (by rw [← size] at sum; exact sum)
    | false =>
      unfold seek
      by_cases none : free = 0
      · have full : Slots.tryTake ⟨capacity, free, []⟩ = Option.none := if_pos none
        have busy_eq : busy = capacity := by omega
        have waits : (Slots.request ⟨capacity, free, []⟩ forOne 1).1 =
            ⟨capacity, 0, [⟨forOne, 1, 0⟩]⟩ := by rw [none]; rfl
        unfold Balanced
        simp only [full, Bool.false_eq_true, if_false, waits, size, busy_eq]
        exact .waiting
      · have takes : Slots.tryTake ⟨capacity, free, []⟩ = some ⟨capacity, free - 1, []⟩ :=
          if_neg none
        simp only [takes, Bool.false_eq_true, if_false]
        unfold Balanced ask
        exact .receiving (by dsimp only; omega)

theorem seek_cases (going : r.cancelled = false) :
    r.seek.1.phase = .receiving ∧ r.seek.2 = [.ask] ∨
      r.seek.1.phase = .waiting ∧ r.seek.2 = [] := by
  unfold seek
  rw [going]
  cases r.slots.tryTake with
  | none => exact .inr ⟨rfl, rfl⟩
  | some slots => exact .inl ⟨rfl, rfl⟩

theorem seek_asks (asks : .ask ∈ r.seek.2) :
    r.cancelled = false ∧ r.seek.1.phase = .receiving := by
  cases cancelled : r.cancelled with
  | true =>
    obtain ⟨activity, drains⟩ := seek_of_cancelled cancelled
    rw [drains] at asks
    cases asks
  | false =>
    rcases seek_cases cancelled with ⟨phase, -⟩ | ⟨-, quiet⟩
    · exact ⟨rfl, phase⟩
    · rw [quiet] at asks
      cases asks

theorem receive_balanced (balanced : r.Balanced capacity) (phase : r.phase = .receiving)
    (fresh : r.inFlight.get? r.next = none) (t : Nat) (what : Received) :
    (r.receive t what).1.Balanced capacity := by
  obtain ⟨_, cancelled, slots, activity, inFlight, next⟩ := r
  cases phase
  unfold Balanced at balanced
  dsimp only at balanced fresh
  generalize size : inFlight.size = busy at balanced
  cases balanced with
  | @receiving free _ sum =>
    have freed : (Slots.release ⟨capacity, free, []⟩ 1).1 = ⟨capacity, free + 1, []⟩ := rfl
    unfold receive Balanced
    cases what with
    | message m =>
      have more : (inFlight.set next (m, .processing)).size = inFlight.size + 1 :=
        Table.size_set_of_none fresh _
      exact .seeking (by rw [more]; omega)
    | nothing | failed =>
      dsimp only
      rw [freed]
      exact .pausing (by omega)

theorem giveBack_of_free {free : Nat} (slots : r.slots = ⟨capacity, free, []⟩) (t n : Nat) :
    r.giveBack t n =
      ({ r with slots := ⟨capacity, free + 1, []⟩, inFlight := r.inFlight.erase n }, []) := by
  unfold giveBack
  rw [slots]
  rfl

theorem giveBack_of_waiting (balanced : r.Balanced capacity) (phase : r.phase = .waiting)
    (t n : Nat) : (r.giveBack t n).1.phase = .receiving ∧ (r.giveBack t n).2 = [.ask] := by
  have account := balanced.of_phase
  rw [phase] at account
  obtain ⟨-, -, slots⟩ := account
  have granted : Slots.release ⟨capacity, 0, [⟨forOne, 1, 0⟩]⟩ 1 =
      (⟨capacity, 0, []⟩, [forOne]) := rfl
  unfold giveBack
  rw [slots, granted]
  exact ⟨rfl, rfl⟩

/-- The slot of a message goes to the reader if it waits, and is free otherwise. -/
theorem giveBack_balanced {n : Nat} {x : Message × Handling} (bounded : capacity < 2 ^ 32)
    (balanced : r.Balanced capacity) (busy : r.inFlight.get? n = some x) (t : Nat) :
    (r.giveBack t n).1.Balanced capacity ∧
      (.ask ∈ (r.giveBack t n).2 →
        r.cancelled = false ∧ (r.giveBack t n).1.phase = .receiving) := by
  have fewer := Table.size_erase busy
  obtain ⟨phase, cancelled, slots, activity, inFlight, next⟩ := r
  unfold Balanced at balanced
  dsimp only at balanced fewer
  generalize size : inFlight.size = busy at balanced
  cases balanced with
  | seeking sum =>
    rw [giveBack_of_free rfl]
    refine ⟨.seeking ?_, ?_⟩
    · dsimp only
      omega
    · intro asks
      cases asks
  | receiving sum =>
    rw [giveBack_of_free rfl]
    refine ⟨.receiving ?_, ?_⟩
    · dsimp only
      omega
    · intro asks
      cases asks
  | pausing sum =>
    rw [giveBack_of_free rfl]
    refine ⟨.pausing ?_, ?_⟩
    · dsimp only
      omega
    · intro asks
      cases asks
  | waiting =>
    have granted : Slots.release ⟨capacity, 0, [⟨forOne, 1, 0⟩]⟩ 1 =
        (⟨capacity, 0, []⟩, [forOne]) := rfl
    unfold giveBack
    rw [granted]
    have held : 0 + (inFlight.erase n).size + 1 = capacity := by omega
    refine ⟨.receiving held, ?_⟩
    intro asks
    exact ⟨rfl, rfl⟩
  | @draining taken busy some sum =>
    unfold giveBack
    by_cases more : taken + 1 < capacity
    · have waits : Slots.release ⟨capacity, 0, [⟨forAll, capacity, taken⟩]⟩ 1 =
          (⟨capacity, 0, [⟨forAll, capacity, taken + 1⟩]⟩, []) := by
        simp only [Slots.release, Slots.serve, if_pos more]
      rw [waits]
      have busy' : 0 < (inFlight.erase n).size := by omega
      have sum' : taken + 1 + (inFlight.erase n).size = capacity := by omega
      refine ⟨.draining busy' sum', ?_⟩
      intro asks
      cases asks
    · have last : Slots.release ⟨capacity, 0, [⟨forAll, capacity, taken⟩]⟩ 1 =
          (⟨capacity, 0, []⟩, [forAll]) := by
        have left : 1 - (capacity - taken) = 0 := by omega
        simp only [Slots.release, Slots.serve, if_neg more, left]
      rw [last]
      have idle : (inFlight.erase n).size = 0 := by omega
      refine ⟨finish_balanced bounded rfl rfl rfl idle, ?_⟩
      intro asks
      cases asks
  | finished => omega

theorem rest_balanced (balanced : r.Balanced capacity) (phase : r.phase = .pausing) :
    { r with phase := .seeking }.Balanced capacity := by
  unfold Balanced at balanced ⊢
  rw [phase] at balanced
  generalize r.cancelled = cancelled at balanced ⊢
  generalize r.slots = slots at balanced ⊢
  generalize r.inFlight.size = busy at balanced ⊢
  cases balanced with
  | pausing sum => exact .seeking sum

/-- **Every step keeps the account**, and a reader that asks for a message is not cancelled and
holds a slot. -/
theorem Balanced.step (bounded : capacity < 2 ^ 32) (balanced : r.Balanced capacity)
    (fresh : r.inFlight.get? r.next = none) (steps : r.Steps t event out) :
    out.1.Balanced capacity ∧ (.ask ∈ out.2 → r.cancelled = false ∧ out.1.phase = .receiving) := by
  cases steps with
  | seek phase => exact ⟨seek_balanced bounded balanced phase, seek_asks⟩
  | received what phase =>
    refine ⟨receive_balanced balanced phase fresh t what, ?_⟩
    intro asks
    cases what <;> simp [receive] at asks
  | rested phase =>
    refine ⟨rest_balanced balanced phase, ?_⟩
    intro asks
    cases asks
  | cancel =>
    refine ⟨cancel_balanced bounded balanced, ?_⟩
    intro asks
    cases asks
  | hands n m busy =>
    have same : (r.inFlight.set n (m, .deleting)).size = r.inFlight.size :=
      Table.size_set_of_some busy _
    constructor
    · unfold Balanced
      rw [same]
      exact balanced
    · intro asks
      simp at asks
  | keeps n m busy => exact giveBack_balanced bounded balanced busy t
  | deleted n m busy => exact giveBack_balanced bounded balanced busy t

/-- A reader that is cancelled, and with which nothing is in flight, has all slots free when it
looks for one, and so finishes. -/
theorem seek_finishes (bounded : capacity < 2 ^ 32) (balanced : r.Balanced capacity)
    (phase : r.phase = .seeking) (cancelled : r.cancelled = true) (idle : r.inFlight.size = 0) :
    r.seek.1.phase = .finished ∧ r.seek.2 = [] := by
  obtain ⟨activity, drains⟩ := seek_of_cancelled cancelled
  have account := balanced.of_phase
  rw [phase] at account
  obtain ⟨free, slots, sum⟩ := account
  have all_free : free = capacity := by omega
  rw [all_free] at slots
  rw [drains]
  refine ⟨?_, rfl⟩
  simp only [drain, slots, all_eq bounded, Slots.request, if_pos (Nat.le_refl capacity), if_true]
  rfl

/-! ## The line -/

/-- Who stands in line in a phase. -/
def places : ReaderPhase → List Nat
  | .waiting => [forOne]
  | .draining => [forAll]
  | .seeking | .receiving | .pausing | .finished => []

/-- Nobody but the reader stands in line, and for what its phase has it wait. This is so whatever
the number of slots. -/
def Placed (r : Reader) : Prop := r.slots.line.map (·.owner) = places r.phase

theorem start_placed (capacity : Nat) : (start capacity).Placed := rfl

/-- The line is never longer than one, so whoever is served leaves nobody behind. -/
theorem served_alone {phase : ReaderPhase} {met rest : List Nat} {k : Nat}
    (parts : met ++ rest = places phase) (mem : k ∈ met) : rest = [] ∧ places phase = [k] := by
  have single (owner : Nat) (line : met ++ rest = [owner]) : rest = [] ∧ [owner] = [k] := by
    rcases List.append_eq_singleton_iff.mp line with ⟨rfl, -⟩ | ⟨rfl, rfl⟩
    · cases mem
    · exact ⟨rfl, congrArg (fun owner => [owner]) (List.mem_singleton.mp mem).symm⟩
  cases phase with
  | waiting => exact single forOne parts
  | draining => exact single forAll parts
  | seeking | receiving | pausing | finished =>
    obtain ⟨rfl, -⟩ := List.append_eq_nil_iff.mp parts
    cases mem

theorem finish_placed (nobody : r.slots.line = []) : r.finish.Placed := by
  have owners := Slots.owners_release r.slots r.slots.all
  rw [nobody] at owners
  exact (List.append_eq_nil_iff.mp owners).2

theorem drain_placed (nobody : r.slots.line = []) : r.drain.Placed := by
  unfold drain Slots.request
  by_cases idle : r.slots.all ≤ r.slots.free
  · simp only [if_pos idle, if_true]
    exact finish_placed nobody
  · simp only [if_neg idle, Bool.false_eq_true, if_false, nobody]
    rfl

theorem Placed.nobody (placed : r.Placed) (none : places r.phase = []) : r.slots.line = [] :=
  List.map_eq_nil_iff.mp (placed.trans none)

theorem seek_placed (placed : r.Placed) (phase : r.phase = .seeking) : r.seek.1.Placed := by
  have nobody := placed.nobody (by rw [phase]; rfl)
  unfold seek
  cases takes : r.slots.tryTake with
  | none =>
    dsimp only
    by_cases cancelled : r.cancelled = true
    · rw [if_pos cancelled]
      exact drain_placed nobody
    · have none_free : ¬ 1 ≤ r.slots.free := by
        unfold Slots.tryTake at takes
        split at takes
        · omega
        · cases takes
      rw [if_neg cancelled]
      simp only [Slots.request, if_neg none_free, nobody]
      rfl
  | some slots =>
    dsimp only
    by_cases cancelled : r.cancelled = true
    · rw [if_pos cancelled]
      exact drain_placed nobody
    · have same := (Slots.capacity_tryTake takes).2
      rw [if_neg cancelled]
      exact congrArg (List.map (·.owner)) (same.trans nobody)

theorem release_nobody {slots : Slots} (nobody : slots.line = []) (n : Nat) :
    (slots.release n).1.line = [] := by
  have owners := Slots.owners_release slots n
  rw [nobody] at owners
  exact List.map_eq_nil_iff.mp (List.append_eq_nil_iff.mp owners).2

theorem receive_placed (placed : r.Placed) (phase : r.phase = .receiving) (what : Received) :
    (r.receive t what).1.Placed := by
  have nobody := placed.nobody (by rw [phase]; rfl)
  cases what with
  | message m => exact congrArg (List.map (·.owner)) nobody
  | nothing | failed => exact congrArg (List.map (·.owner)) (release_nobody nobody 1)

theorem cancel_placed (placed : r.Placed) : r.cancel.Placed := by
  unfold cancel
  cases phase : r.phase with
  | waiting =>
    refine drain_placed ?_
    have line : r.slots.line.map (·.owner) = [forOne] := by rw [placed, phase]; rfl
    obtain ⟨w, alone, owner⟩ := List.map_eq_singleton_iff.mp line
    simp only [Slots.withdraw, alone, List.find?_singleton, owner, decide_true, if_true]
    exact release_nobody (by simp [owner]) w.taken
  | receiving =>
    exact drain_placed (release_nobody (placed.nobody (by rw [phase]; rfl)) 1)
  | pausing => exact drain_placed (placed.nobody (by rw [phase]; rfl))
  | seeking | draining | finished => exact placed.trans (congrArg places phase)

theorem giveBack_placed (placed : r.Placed) (t n : Nat) : (r.giveBack t n).1.Placed := by
  have owners := Slots.owners_release r.slots 1
  rw [show r.slots.line.map (·.owner) = places r.phase from placed] at owners
  unfold giveBack
  generalize r.slots.release 1 = out at owners
  obtain ⟨slots, met⟩ := out
  dsimp only at owners ⊢
  by_cases one : forOne ∈ met
  · rw [if_pos one]
    exact (served_alone owners one).1
  · rw [if_neg one]
    by_cases all : forAll ∈ met
    · rw [if_pos all]
      exact finish_placed (List.map_eq_nil_iff.mp (served_alone owners all).1)
    · rw [if_neg all]
      have nobody : met = [] := by
        refine List.eq_nil_iff_forall_not_mem.mpr fun k mem => ?_
        have alone := (served_alone owners mem).2
        cases phase : r.phase <;> rw [phase] at alone <;> cases alone
        · exact one mem
        · exact all mem
      rw [nobody] at owners
      exact owners

/-- **Every step keeps the line.** -/
theorem Placed.step (placed : r.Placed) (steps : r.Steps t event out) : out.1.Placed := by
  cases steps with
  | seek phase => exact seek_placed placed phase
  | received what phase => exact receive_placed placed phase what
  | rested phase =>
    have none : places r.phase = [] := by rw [phase]; rfl
    exact placed.trans none
  | cancel => exact cancel_placed placed
  | hands n m busy => exact placed
  | keeps n m busy | deleted n m busy => exact giveBack_placed placed t n

theorem capacity_drain (r : Reader) : r.drain.slots.capacity = r.slots.capacity := by
  unfold drain finish
  dsimp only
  split <;> simp

theorem Steps.capacity_eq (steps : r.Steps t event out) :
    out.1.slots.capacity = r.slots.capacity := by
  cases steps with
  | seek phase =>
    unfold Reader.seek
    cases takes : r.slots.tryTake with
    | none =>
      dsimp only
      split
      · exact capacity_drain _
      · exact Slots.capacity_request ..
    | some slots =>
      dsimp only
      split
      · exact capacity_drain _
      · exact (Slots.capacity_tryTake takes).1
  | received what phase =>
    cases what with
    | message m | nothing | failed => rfl
  | rested phase => rfl
  | cancel =>
    unfold Reader.cancel
    cases r.phase with
    | waiting => simp [capacity_drain]
    | receiving | pausing => exact capacity_drain _
    | seeking | draining | finished => rfl
  | hands n m busy => rfl
  | keeps n m busy | deleted n m busy =>
    unfold giveBack finish ask
    dsimp only
    split
    · rfl
    · split <;> rfl

end Reader

end CheckAgent
