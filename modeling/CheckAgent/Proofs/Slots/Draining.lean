import CheckAgent.Settings
import CheckAgent.Slots
import CheckAgent.Table

/-!
# Waiting until no slot is held

Those who run checks take slots and give them back; who drains asks for all slots and so waits until
nobody holds one. A `Budget` is the slots with the `Ticket`s of those who stand in line or have what
they asked for, numbered in the order in which they came.

**The account.** What is free, what those in line have taken and what is in hand make up all slots,
and whoever comes first is served first (`Budget.Sound`). Every step keeps that.

A request for all slots asks for no more than a number of 32 bits can hold. **Main result**
(`drains_when_idle`). A drain that comes first in line is served as soon as no slot is held. That it
is served only then holds exactly if the number of slots fits into 32 bits; with more slots it may
be served while some are held (`drains_beside_held`).
-/

namespace CheckAgent

namespace Slots

/-! ## The line -/

/-- What all in line have taken. -/
def taken (line : List Waiter) : Nat := load (·.taken) line

/-- What all in line want. -/
def wanted (line : List Waiter) : Nat := load (·.wanted) line

/-- Who stands in line, and for how much. -/
def places (line : List Waiter) : List (Nat × Nat) := line.map fun w => (w.owner, w.wanted)

/-- A line as it comes about: nobody in it has what it wants, only the first one has taken
something, all came in order, and there are no free slots beside it. -/
structure Orderly (s : Slots) : Prop where
  unmet : ∀ w ∈ s.line, w.taken < w.wanted
  others : ∀ w ∈ s.line.tail, w.taken = 0
  inOrder : s.line.Pairwise fun v w => v.owner < w.owner
  busy : s.line ≠ [] → s.free = 0

/-- What becomes of a line when slots are handed to it: all in it are served, or the first ones are
and the next one gets the rest. -/
inductive Serves (n : Nat) (line : List Waiter) : List Nat × List Waiter × Nat → Prop where
  | all {left : Nat} (sum : n + taken line = left + wanted line) :
      Serves n line (line.map (·.owner), [], left)
  | some (served : List Waiter) {rest : List Waiter} {w : Waiter} {more : Nat}
      (parts : line = served ++ w :: rest) (short : w.taken + more < w.wanted)
      (sum : n + taken served = more + wanted served) :
      Serves n line (served.map (·.owner), { w with taken := w.taken + more } :: rest, 0)

theorem serves_serve (n : Nat) (line : List Waiter) (unmet : ∀ w ∈ line, w.taken < w.wanted) :
    Serves n line (serve n line) := by
  induction line generalizing n with
  | nil => exact .all rfl
  | cons w rest ih =>
    have first := unmet w List.mem_cons_self
    unfold serve
    by_cases short : w.taken + n < w.wanted
    · rw [if_pos short]
      exact .some [] rfl short rfl
    · rw [if_neg short]
      have later := ih (n - (w.wanted - w.taken)) fun v mem => unmet v (List.mem_cons_of_mem w mem)
      generalize serve (n - (w.wanted - w.taken)) rest = out at later
      cases later with
      | all sum =>
        refine .all ?_
        simp only [taken, wanted, load] at sum ⊢
        omega
      | some served parts short' sum =>
        refine .some (w :: served) (by rw [parts]; rfl) short' ?_
        simp only [taken, wanted, load] at sum ⊢
        omega

theorem Orderly.release {s : Slots} (h : s.Orderly) (n : Nat) : ∃ served : List Waiter,
    (s.release n).2 = served.map (·.owner) ∧
    places s.line = places served ++ places (s.release n).1.line ∧
    (s.release n).1.free + taken (s.release n).1.line + wanted served = s.free + n + taken s.line ∧
    (s.release n).1.Orderly := by
  have out := serves_serve n s.line h.unmet
  unfold Slots.release
  generalize serve n s.line = result at out
  cases out with
  | @all left sum =>
    refine ⟨s.line, rfl, (List.append_nil _).symm, ?_, ?_⟩
    · simp only [taken, load] at sum ⊢
      omega
    · exact ⟨by simp, by simp, by simp, by simp⟩
  | @some served rest w more parts short sum =>
    refine ⟨served, rfl, ?_, ?_, ?_⟩
    · rw [parts]
      simp [places]
    · rw [parts]
      simp only [taken, wanted, load_append, load] at sum ⊢
      omega
    · have behind (v : Waiter) (mem : v ∈ rest) : v ∈ s.line.tail := by
        rw [parts]
        cases served <;> simp [mem]
      have ordered := h.inOrder
      rw [parts, List.pairwise_append, List.pairwise_cons] at ordered
      constructor
      · intro v mem
        rcases List.mem_cons.mp mem with rfl | mem
        · exact short
        · exact h.unmet v (List.mem_of_mem_tail (behind v mem))
      · exact fun v mem => h.others v (behind v mem)
      · exact List.pairwise_cons.mpr ordered.2.1
      · intro _
        exact h.busy (by simp [parts])

/-- The line without one who stood in it. -/
def without (s : Slots) (owner : Nat) : Slots :=
  { s with line := s.line.filter (·.owner ≠ owner) }

theorem Orderly.without {s : Slots} (h : s.Orderly) (owner : Nat) : (s.without owner).Orderly := by
  constructor
  · intro v mem
    exact h.unmet v (List.mem_filter.mp mem).1
  · intro v mem
    refine h.others v ?_
    unfold Slots.without at mem
    dsimp only at mem
    generalize s.line = line at mem
    cases line with
    | nil => cases mem
    | cons w rest =>
      by_cases stays : w.owner ≠ owner
      · rw [List.filter_cons_of_pos (by simpa using stays)] at mem
        exact (List.mem_filter.mp mem).1
      · rw [List.filter_cons_of_neg (by simpa using stays)] at mem
        exact (List.mem_filter.mp (List.mem_of_mem_tail mem)).1
  · exact h.inOrder.filter _
  · intro some
    refine h.busy ?_
    rintro none
    exact some (by simp [Slots.without, none])

theorem Orderly.taken_of_first {s : Slots} (h : s.Orderly) {w : Waiter} (mem : w ∈ s.line)
    (first : ∀ v ∈ s.line, ¬ v.owner < w.owner) : taken s.line = w.taken := by
  have others := h.others
  have inOrder := h.inOrder
  generalize s.line = line at mem first others inOrder
  cases line with
  | nil => cases mem
  | cons v rest =>
    have front : w = v := by
      rcases List.mem_cons.mp mem with same | behind
      · exact same
      · exact absurd ((List.pairwise_cons.mp inOrder).1 w behind) (first v List.mem_cons_self)
    have nothing : taken rest = 0 := load_eq_zero others
    simp only [taken, load] at nothing ⊢
    rw [nothing, front, Nat.add_zero]

theorem Orderly.lineUp {s : Slots} (h : s.Orderly) {owner wanted : Nat} (short : s.free < wanted)
    (last : ∀ w ∈ s.line, w.owner < owner) :
    Orderly { s with free := 0, line := s.line ++ [⟨owner, wanted, s.free⟩] } := by
  constructor
  · intro w mem
    rcases List.mem_append.mp mem with mem | mem
    · exact h.unmet w mem
    · obtain rfl := List.mem_singleton.mp mem
      exact short
  · intro w mem
    by_cases nobody : s.line = []
    · simp [nobody] at mem
    · dsimp only at mem
      rw [List.tail_append_of_ne_nil nobody] at mem
      rcases List.mem_append.mp mem with mem | mem
      · exact h.others w mem
      · obtain rfl := List.mem_singleton.mp mem
        exact h.busy nobody
  · refine List.pairwise_append.mpr ⟨h.inOrder, by simp, ?_⟩
    intro v mem w behind
    obtain rfl := List.mem_singleton.mp behind
    exact last v mem
  · intro _
    rfl

theorem taken_without {line : List Waiter} {w : Waiter} (mem : w ∈ line)
    (ordered : line.Pairwise fun v w => v.owner < w.owner) :
    taken (line.filter (·.owner ≠ w.owner)) + w.taken = taken line := by
  induction line with
  | nil => cases mem
  | cons v rest ih =>
    obtain ⟨later, ordered⟩ := List.pairwise_cons.mp ordered
    rcases List.mem_cons.mp mem with rfl | mem
    · have others : ∀ v ∈ rest, decide (v.owner ≠ w.owner) = true := by
        intro v mem
        have := later v mem
        simp only [ne_eq, decide_not, Bool.not_eq_eq_eq_not, Bool.not_true, decide_eq_false_iff_not]
        omega
      rw [List.filter_cons_of_neg (by simp), List.filter_eq_self.mpr others]
      exact Nat.add_comm ..
    · have other : v.owner ≠ w.owner := Nat.ne_of_lt (later w mem)
      have rest := ih mem ordered
      rw [List.filter_cons_of_pos (by simpa using other)]
      simp only [taken, load] at rest ⊢
      omega

end Slots

/-! ## Tickets -/

/-- What somebody asks for. -/
inductive Want where
  | one
  | all
  deriving DecidableEq, Repr

def Slots.amount (s : Slots) : Want → Nat
  | .one => 1
  | .all => s.all

/-- Somebody who has asked for slots, and has them or stands in line. -/
structure Ticket where
  want : Want
  granted : Bool
  deriving DecidableEq, Repr

/-- Slots with the tickets for them. -/
structure Budget where
  slots : Slots
  tickets : Table Nat Ticket
  /-- The number of the next ticket. -/
  next : Nat

/-- What may happen to a budget. -/
inductive BudgetEvent where
  /-- Somebody stands in line for one slot, or for all of them. -/
  | ask (want : Want)
  /-- Somebody takes a slot if one is free now. -/
  | tryTake
  /-- Somebody gives back what it has. -/
  | giveBack (n : Nat)
  /-- Somebody in line goes away. -/
  | withdraw (n : Nat)
  deriving DecidableEq, Repr

def grant (tickets : Table Nat Ticket) (met : List Nat) : Table Nat Ticket :=
  met.foldl (fun tickets n => tickets.modify n fun t => { t with granted := true }) tickets

namespace Budget

def ofCapacity (capacity : Nat) : Budget := ⟨.ofCapacity capacity, .empty, 0⟩

/-- A budget after slots have come back to it. -/
def settled (b : Budget) (out : Slots × List Nat) : Budget :=
  { b with slots := out.1, tickets := grant b.tickets out.2 }

/-- What an event makes of a budget; nothing if it cannot happen. -/
def step (b : Budget) : BudgetEvent → Option Budget
  | .ask want =>
    let (slots, met) := b.slots.request b.next (b.slots.amount want)
    some ⟨slots, b.tickets.set b.next ⟨want, met⟩, b.next + 1⟩
  | .tryTake =>
    match b.slots.tryTake with
    | some slots => some ⟨slots, b.tickets.set b.next ⟨.one, true⟩, b.next + 1⟩
    | none => some b
  | .giveBack n =>
    match b.tickets.get? n with
    | some ⟨want, true⟩ =>
      some ({ b with tickets := b.tickets.erase n }.settled (b.slots.release (b.slots.amount want)))
    | _ => none
  | .withdraw n =>
    match b.tickets.get? n with
    | some ⟨_, false⟩ =>
      some ({ b with tickets := b.tickets.erase n }.settled (b.slots.withdraw n))
    | _ => none

/-- What comes of events that happen to a budget of some slots one after another. An event that
cannot happen is passed over. -/
def after (capacity : Nat) (events : List BudgetEvent) : Budget :=
  events.foldl (fun b e => (b.step e).getD b) (ofCapacity capacity)

/-- Somebody holds a slot. -/
def Holds (b : Budget) (n : Nat) : Prop := b.tickets.get? n = some ⟨.one, true⟩

/-- Somebody waits: for a slot, or for all slots and may have been granted them. -/
def Queues (b : Budget) (n : Nat) : Prop :=
  ∃ t, b.tickets.get? n = some t ∧ (t.want = .all ∨ t.granted = false)

/-- The drain with a number is through: it has been granted all slots that it asked for. -/
def Drained (b : Budget) (n : Nat) : Prop := b.tickets.get? n = some ⟨.all, true⟩

instance (b : Budget) (n : Nat) : Decidable (b.Holds n) :=
  inferInstanceAs (Decidable (b.tickets.get? n = some ⟨.one, true⟩))

instance (b : Budget) (n : Nat) : Decidable (b.Drained n) :=
  inferInstanceAs (Decidable (b.tickets.get? n = some ⟨.all, true⟩))

/-! ## The account -/

/-- What somebody has in hand. -/
def weight (s : Slots) (t : Ticket) : Nat := if t.granted then s.amount t.want else 0

def inHand (b : Budget) : Nat := b.tickets.total (weight b.slots)

/-- What somebody holds to run a check. -/
def share (t : Ticket) : Nat := if t = ⟨.one, true⟩ then 1 else 0

/-- The slots that are held to run checks. -/
def held (b : Budget) : Nat := b.tickets.total share

/-- A budget accounts for all slots but for some that are on their way back, its line is made up of
the tickets that are not granted, and whoever was served came before all who wait. -/
structure Sound (b : Budget) (onTheWay : Nat) : Prop where
  orderly : b.slots.Orderly
  sum : b.slots.free + Slots.taken b.slots.line + b.inHand + onTheWay = b.slots.capacity
  waits : ∀ n k, (n, k) ∈ Slots.places b.slots.line ↔
    ∃ want, b.tickets.get? n = some ⟨want, false⟩ ∧ k = b.slots.amount want
  first : ∀ n m want want', b.tickets.get? n = some ⟨want, true⟩ →
    b.tickets.get? m = some ⟨want', false⟩ → n < m
  known : ∀ n t, b.tickets.get? n = some t → n < b.next

end Budget

theorem amount_pos {s : Slots} (some : 0 < s.capacity) (want : Want) : 0 < s.amount want := by
  cases want with
  | one => exact Nat.one_pos
  | all => exact Nat.lt_min.mpr ⟨some, by decide⟩

theorem amount_congr {s s' : Slots} (same : s'.capacity = s.capacity) :
    s'.amount = s.amount := by
  funext want
  cases want with
  | one => rfl
  | all => simp [Slots.amount, Slots.all, same]

theorem weight_congr {s s' : Slots} (same : s'.capacity = s.capacity) :
    Budget.weight s' = Budget.weight s := by
  funext t
  simp [Budget.weight, amount_congr same]

theorem get?_grant (tickets : Table Nat Ticket) (met : List Nat) (n : Nat) :
    (grant tickets met).get? n =
      (tickets.get? n).map fun t => if n ∈ met then { t with granted := true } else t := by
  unfold grant
  induction met generalizing tickets with
  | nil => simp
  | cons k rest ih =>
    rw [List.foldl_cons, ih, Table.get?_modify]
    by_cases same : n = k
    · subst same
      cases tickets.get? n <;> simp
    · simp [same]

theorem get?_grant_waiting {tickets : Table Nat Ticket} {met : List Nat} {n : Nat} {want : Want} :
    (grant tickets met).get? n = some ⟨want, false⟩ ↔
      tickets.get? n = some ⟨want, false⟩ ∧ n ∉ met := by
  rw [get?_grant]
  cases tickets.get? n with
  | none => simp
  | some t =>
    obtain ⟨want', granted⟩ := t
    by_cases mem : n ∈ met <;> simp [mem]

theorem get?_grant_granted {tickets : Table Nat Ticket} {met : List Nat} {n : Nat} {want : Want} :
    (grant tickets met).get? n = some ⟨want, true⟩ ↔
      tickets.get? n = some ⟨want, true⟩ ∨ tickets.get? n = some ⟨want, false⟩ ∧ n ∈ met := by
  rw [get?_grant]
  cases tickets.get? n with
  | none => simp
  | some t =>
    obtain ⟨want', granted⟩ := t
    by_cases mem : n ∈ met <;> cases granted <;> simp [mem]

theorem total_grant {s : Slots} {tickets : Table Nat Ticket} {served : List Waiter}
    (distinct : (served.map (·.owner)).Nodup)
    (wait : ∀ w ∈ served, ∃ want, tickets.get? w.owner = some ⟨want, false⟩ ∧
      w.wanted = s.amount want) :
    (grant tickets (served.map (·.owner))).total (Budget.weight s) =
      tickets.total (Budget.weight s) + Slots.wanted served := by
  induction served generalizing tickets with
  | nil => rfl
  | cons w rest ih =>
    obtain ⟨fresh, distinct⟩ := List.nodup_cons.mp distinct
    obtain ⟨want, waiting, wanted⟩ := wait w List.mem_cons_self
    have marked : tickets.modify w.owner (fun t => { t with granted := true }) =
        tickets.set w.owner ⟨want, true⟩ := by simp [Table.modify, waiting]
    have later : ∀ v ∈ rest, ∃ want', (tickets.set w.owner ⟨want, true⟩).get? v.owner =
        some ⟨want', false⟩ ∧ v.wanted = s.amount want' := by
      intro v mem
      have other : v.owner ≠ w.owner := fun same => fresh (List.mem_map.mpr ⟨v, mem, same⟩)
      rw [Table.get?_set, if_neg other]
      exact wait v (List.mem_cons_of_mem w mem)
    have total := ih distinct later
    have before := Table.total_erase (Budget.weight s) waiting
    have now := Table.total_set tickets w.owner ⟨want, true⟩ (Budget.weight s)
    rw [List.map_cons, grant, List.foldl_cons, marked, ← grant, total]
    simp only [Budget.weight, Bool.false_eq_true, if_false, if_true, Slots.wanted, load]
      at before now ⊢
    omega

namespace Budget

variable {b : Budget} {n k : Nat} {want : Want}

theorem sound_start (capacity : Nat) : (ofCapacity capacity).Sound 0 where
  orderly := ⟨by simp [ofCapacity, Slots.ofCapacity], by simp [ofCapacity, Slots.ofCapacity],
    by simp [ofCapacity, Slots.ofCapacity], by simp [ofCapacity, Slots.ofCapacity]⟩
  sum := rfl
  waits n k := by simp [ofCapacity, Slots.ofCapacity, Slots.places]
  first n m want want' granted := by simp [ofCapacity] at granted
  known n t mem := by simp [ofCapacity] at mem

theorem Sound.ticket (sound : b.Sound k) {w : Waiter} (mem : w ∈ b.slots.line) : ∃ want,
    b.tickets.get? w.owner = some ⟨want, false⟩ ∧ w.wanted = b.slots.amount want :=
  (sound.waits w.owner w.wanted).mp (List.mem_map.mpr ⟨w, mem, rfl⟩)

theorem Sound.waiter (sound : b.Sound k) (waiting : b.tickets.get? n = some ⟨want, false⟩) :
    ∃ w ∈ b.slots.line, w.owner = n ∧ w.wanted = b.slots.amount want := by
  obtain ⟨w, mem, same⟩ := List.mem_map.mp ((sound.waits n _).mpr ⟨want, waiting, rfl⟩)
  exact ⟨w, mem, congrArg Prod.fst same, congrArg Prod.snd same⟩

/-- While slots are free nobody waits. -/
theorem Sound.nobody_waits (sound : b.Sound k) (free : b.slots.free ≠ 0) (n : Nat) (want : Want) :
    b.tickets.get? n ≠ some ⟨want, false⟩ := by
  intro waiting
  obtain ⟨w, mem, -⟩ := sound.waiter waiting
  exact free (sound.orderly.busy (List.ne_nil_of_mem mem))

section

variable {served rest : List Waiter} (sound : b.Sound k)
  (parts : Slots.places b.slots.line = Slots.places served ++ Slots.places rest)

include sound parts

theorem Sound.ordered : ((served.map (·.owner)).Nodup ∧
    ∀ p ∈ Slots.places served, ∀ q ∈ Slots.places rest, p.1 < q.1) := by
  have ordered : (Slots.places b.slots.line).Pairwise fun p q => p.1 < q.1 :=
    List.pairwise_map.mpr sound.orderly.inOrder
  rw [parts, List.pairwise_append] at ordered
  refine ⟨List.pairwise_map.mpr ?_, ordered.2.2⟩
  exact (List.pairwise_map.mp ordered.1).imp Nat.ne_of_lt

theorem Sound.served_waits {w : Waiter} (mem : w ∈ served) : ∃ want,
    b.tickets.get? w.owner = some ⟨want, false⟩ ∧ w.wanted = b.slots.amount want := by
  apply (sound.waits w.owner w.wanted).mp
  rw [parts]
  exact List.mem_append_left _ (List.mem_map.mpr ⟨w, mem, rfl⟩)

theorem Sound.rest_waits (n m : Nat) : (n, m) ∈ Slots.places rest ↔
    ∃ want, (grant b.tickets (served.map (·.owner))).get? n = some ⟨want, false⟩ ∧
      m = b.slots.amount want := by
  simp only [get?_grant_waiting]
  constructor
  · intro mem
    have place : (n, m) ∈ Slots.places b.slots.line := by
      rw [parts]
      exact List.mem_append_right _ mem
    obtain ⟨want, waiting, eq⟩ := (sound.waits n m).mp place
    refine ⟨want, ⟨waiting, ?_⟩, eq⟩
    intro isServed
    obtain ⟨w, mem', rfl⟩ := List.mem_map.mp isServed
    have before := (sound.ordered parts).2 _ (List.mem_map.mpr ⟨w, mem', rfl⟩) _ mem
    exact Nat.lt_irrefl _ before
  · rintro ⟨want, ⟨waiting, unserved⟩, eq⟩
    have place := (sound.waits n m).mpr ⟨want, waiting, eq⟩
    rw [parts, List.mem_append] at place
    apply place.resolve_left
    intro mem
    obtain ⟨w, mem, same⟩ := List.mem_map.mp mem
    exact unserved (List.mem_map.mpr ⟨w, mem, congrArg Prod.fst same⟩)

end

/-- **Slots that come back** go to the first in line, and the account is even again. -/
theorem Sound.settled (sound : b.Sound k) : (b.settled (b.slots.release k)).Sound 0 := by
  obtain ⟨served, met, parts, sum, orderly⟩ := sound.orderly.release k
  have same : (b.slots.release k).1.capacity = b.slots.capacity := rfl
  obtain ⟨distinct, before⟩ := sound.ordered parts
  have waits := sound.rest_waits parts
  unfold Budget.settled
  rw [met]
  refine ⟨orderly, ?_, ?_, ?_, ?_⟩
  · have total := total_grant distinct fun w mem => sound.served_waits parts mem
    have account := sound.sum
    unfold inHand at account ⊢
    rw [weight_congr same, total]
    dsimp only
    omega
  · rw [amount_congr same]
    exact waits
  · intro n m want want' granted waiting
    rcases get?_grant_granted.mp granted with granted | ⟨-, isServed⟩
    · exact sound.first n m want want' granted (get?_grant_waiting.mp waiting).1
    · obtain ⟨w, mem, rfl⟩ := List.mem_map.mp isServed
      exact before _ (List.mem_map.mpr ⟨w, mem, rfl⟩) _ ((waits m _).mpr ⟨want', waiting, rfl⟩)
  · intro n t mem
    dsimp only at mem
    rw [get?_grant, Option.map_eq_some_iff] at mem
    obtain ⟨t', mem, -⟩ := mem
    exact sound.known n t' mem

/-! ## What each event does -/

theorem Sound.fresh (sound : b.Sound k) : b.tickets.get? b.next = none := by
  cases h : b.tickets.get? b.next with
  | none => rfl
  | some t => exact absurd (sound.known _ t h) (Nat.lt_irrefl _)

theorem Sound.known_set (sound : b.Sound k) (t : Ticket) (n : Nat) (t' : Ticket)
    (mem : (b.tickets.set b.next t).get? n = some t') : n < b.next + 1 := by
  rw [Table.get?_set] at mem
  split at mem
  · omega
  · exact Nat.lt_succ_of_lt (sound.known n t' mem)

theorem Sound.inHand_set (sound : b.Sound k) {s : Slots} (same : s.capacity = b.slots.capacity)
    (t : Ticket) (next : Nat) :
    inHand ⟨s, b.tickets.set b.next t, next⟩ = weight b.slots t + b.inHand := by
  unfold inHand
  rw [Table.total_set, Table.erase_of_get?_none sound.fresh, weight_congr same]

theorem Sound.granted (sound : b.Sound 0) (some : 0 < b.slots.capacity) (want : Want)
    (enough : b.slots.amount want ≤ b.slots.free) :
    Sound ⟨{ b.slots with free := b.slots.free - b.slots.amount want },
      b.tickets.set b.next ⟨want, true⟩, b.next + 1⟩ 0 := by
  have positive := amount_pos some want
  have none := sound.nobody_waits (by omega)
  constructor
  · refine ⟨sound.orderly.unmet, sound.orderly.others, sound.orderly.inOrder, ?_⟩
    intro busy
    have := sound.orderly.busy busy
    dsimp only
    omega
  · have account := sound.sum
    have total := sound.inHand_set (s := { b.slots with
      free := b.slots.free - b.slots.amount want }) rfl ⟨want, true⟩ (b.next + 1)
    rw [total]
    simp only [weight, if_true]
    omega
  · intro n m
    rw [amount_congr (s := b.slots) rfl]
    refine (sound.waits n m).trans ?_
    constructor
    · rintro ⟨want', waiting, -⟩
      exact absurd waiting (none n want')
    · rintro ⟨want', waiting, -⟩
      rw [Table.get?_set] at waiting
      split at waiting
      · cases waiting
      · exact absurd waiting (none n want')
  · rintro n m want' want'' - waiting
    dsimp only at waiting
    rw [Table.get?_set] at waiting
    split at waiting
    · cases waiting
    · exact absurd waiting (none m want'')
  · exact sound.known_set _

/-- Whoever asks for more than is free takes what is free and stands in line behind all others. -/
theorem Sound.lined_up (sound : b.Sound 0) (short : b.slots.free < b.slots.amount want) :
    Sound ⟨{ b.slots with
        free := 0
        line := b.slots.line ++ [⟨b.next, b.slots.amount want, b.slots.free⟩] },
      b.tickets.set b.next ⟨want, false⟩, b.next + 1⟩ 0 := by
  constructor
  · refine sound.orderly.lineUp short ?_
    intro w mem
    obtain ⟨want', waiting, -⟩ := sound.ticket mem
    exact sound.known _ _ waiting
  · have account := sound.sum
    rw [sound.inHand_set (s := { b.slots with free := 0, line := _ }) rfl]
    simp only [weight, Bool.false_eq_true, if_false, Slots.taken, load_append, load] at account ⊢
    omega
  · intro n m
    rw [amount_congr (s := b.slots) rfl]
    simp only [Slots.places, List.map_append, List.map_cons, List.map_nil, List.mem_append,
      List.mem_singleton, Prod.mk.injEq, Table.get?_set]
    constructor
    · rintro (mem | ⟨rfl, rfl⟩)
      · obtain ⟨want', waiting, eq⟩ := (sound.waits n m).mp mem
        have other : n ≠ b.next := Nat.ne_of_lt (sound.known _ _ waiting)
        exact ⟨want', by rw [if_neg other, waiting], eq⟩
      · exact ⟨want, by rw [if_pos rfl], rfl⟩
    · rintro ⟨want', waiting, eq⟩
      split at waiting
      · next same =>
        cases waiting
        exact .inr ⟨same, eq⟩
      · exact .inl ((sound.waits n m).mpr ⟨want', waiting, eq⟩)
  · intro n m want' want'' granted waiting
    simp only [Table.get?_set] at granted waiting
    split at granted
    · cases granted
    · split at waiting
      · next same => exact same ▸ sound.known _ _ granted
      · exact sound.first n m want' want'' granted waiting
  · exact sound.known_set _

/-- Without one ticket, still whoever was served came before all who wait. -/
theorem Sound.first_erase (sound : b.Sound 0) (n m k : Nat) (want want' : Want)
    (granted : (b.tickets.erase n).get? m = some ⟨want, true⟩)
    (waiting : (b.tickets.erase n).get? k = some ⟨want', false⟩) : m < k :=
  sound.first m k want want' (Table.get?_erase_eq_some.mp granted).2
    (Table.get?_erase_eq_some.mp waiting).2

theorem Sound.known_erase (sound : b.Sound 0) (n m : Nat) (t : Ticket)
    (mem : (b.tickets.erase n).get? m = some t) : m < b.next :=
  sound.known m t (Table.get?_erase_eq_some.mp mem).2

theorem Sound.given_back (sound : b.Sound 0) (granted : b.tickets.get? n = some ⟨want, true⟩) :
    Sound { b with tickets := b.tickets.erase n } (b.slots.amount want) := by
  refine ⟨sound.orderly, ?_, ?_, sound.first_erase n, sound.known_erase n⟩
  · have account := sound.sum
    have total := Table.total_erase (weight b.slots) granted
    simp only [inHand, weight, if_true] at account total ⊢
    omega
  · intro m k
    refine (sound.waits m k).trans ?_
    simp only [Table.get?_erase_eq_some]
    constructor
    · rintro ⟨want', waiting, eq⟩
      refine ⟨want', ⟨?_, waiting⟩, eq⟩
      rintro rfl
      rw [granted] at waiting
      cases waiting
    · rintro ⟨want', ⟨-, waiting⟩, eq⟩
      exact ⟨want', waiting, eq⟩

theorem Sound.gone (sound : b.Sound 0) {w : Waiter} (mem : w ∈ b.slots.line) :
    Sound ⟨b.slots.without w.owner, b.tickets.erase w.owner, b.next⟩ w.taken := by
  obtain ⟨want, waiting, -⟩ := sound.ticket mem
  have same : (b.slots.without w.owner).capacity = b.slots.capacity := rfl
  refine ⟨sound.orderly.without w.owner, ?_, ?_, sound.first_erase w.owner,
    sound.known_erase w.owner⟩
  · have account := sound.sum
    have left := Slots.taken_without mem sound.orderly.inOrder
    have total := Table.total_erase (weight b.slots) waiting
    simp only [inHand, weight_congr same] at account ⊢
    simp only [weight, Bool.false_eq_true, if_false] at total
    simp only [Slots.without] at left ⊢
    omega
  · intro m k
    rw [amount_congr same]
    simp only [Slots.without, Slots.places, List.mem_map, List.mem_filter, Prod.mk.injEq,
      Table.get?_erase_eq_some]
    constructor
    · rintro ⟨v, ⟨mem, other⟩, rfl, rfl⟩
      obtain ⟨want', waiting, eq⟩ := sound.ticket mem
      exact ⟨want', ⟨by simpa using other, waiting⟩, eq⟩
    · rintro ⟨want', ⟨other, waiting⟩, eq⟩
      obtain ⟨v, mem, rfl, wanted⟩ := sound.waiter waiting
      exact ⟨v, ⟨mem, by simpa using other⟩, rfl, wanted.trans eq.symm⟩

/-- **Every event keeps the account.** -/
theorem Sound.step (sound : b.Sound 0) (some : 0 < b.slots.capacity) {e : BudgetEvent}
    {b' : Budget} (happens : b.step e = .some b') :
    b'.Sound 0 ∧ b'.slots.capacity = b.slots.capacity := by
  cases e with
  | ask want =>
    simp only [Budget.step, Slots.request] at happens
    by_cases enough : b.slots.amount want ≤ b.slots.free
    · rw [if_pos enough] at happens
      cases happens
      exact ⟨sound.granted some want enough, rfl⟩
    · rw [if_neg enough] at happens
      cases happens
      exact ⟨sound.lined_up (Nat.lt_of_not_le enough), rfl⟩
  | tryTake =>
    simp only [Budget.step, Slots.tryTake] at happens
    by_cases none : b.slots.free = 0
    · rw [if_pos none] at happens
      cases happens
      exact ⟨sound, rfl⟩
    · rw [if_neg none] at happens
      cases happens
      exact ⟨sound.granted some .one (Nat.one_le_iff_ne_zero.mpr none), rfl⟩
  | giveBack n =>
    simp only [Budget.step] at happens
    split at happens
    · next want granted =>
      cases happens
      exact ⟨(sound.given_back granted).settled, rfl⟩
    · cases happens
  | withdraw n =>
    simp only [Budget.step, Slots.withdraw] at happens
    split at happens
    · next want waiting =>
      obtain ⟨w, mem, owner, -⟩ := sound.waiter waiting
      split at happens
      · next absent => exact absurd (decide_eq_true owner) (List.find?_eq_none.mp absent w mem)
      · next v found =>
        obtain rfl : v.owner = n := by simpa using List.find?_some found
        cases happens
        exact ⟨(sound.gone (List.mem_of_find?_eq_some found)).settled, rfl⟩
    · cases happens

/-- **The account of every history.** -/
theorem sound_after {capacity : Nat} (some : 0 < capacity) (events : List BudgetEvent) :
    (after capacity events).Sound 0 ∧ (after capacity events).slots.capacity = capacity := by
  suffices run : ∀ b : Budget, b.Sound 0 → b.slots.capacity = capacity →
      (events.foldl (fun b e => (b.step e).getD b) b).Sound 0 ∧
        (events.foldl (fun b e => (b.step e).getD b) b).slots.capacity = capacity from
    run (ofCapacity capacity) (sound_start capacity) rfl
  induction events with
  | nil => exact fun b sound same => ⟨sound, same⟩
  | cons e rest ih =>
    intro b sound same
    cases happens : b.step e with
    | none => simpa [happens] using ih b sound same
    | some b' =>
      have kept := sound.step (same ▸ some) happens
      simpa [happens] using ih b' kept.1 (kept.2.trans same)

/-! ## Drains -/

/-- While a drain is through, the slots that it has asked for are held by nobody. -/
theorem Sound.held_le (sound : b.Sound 0) (drained : b.Drained n) :
    b.held + b.slots.all ≤ b.slots.capacity := by
  have account := sound.sum
  have inHand := Table.total_erase (weight b.slots) drained
  have held := Table.total_erase share drained
  have le : (b.tickets.erase n).total share ≤ (b.tickets.erase n).total (weight b.slots) := by
    refine Table.total_le_total _ ?_
    rintro ⟨want, granted⟩
    cases want <;> cases granted <;> simp [weight, share, Slots.amount]
  have nothing : share ⟨.all, true⟩ = 0 := rfl
  have everything : weight b.slots ⟨.all, true⟩ = b.slots.all := rfl
  unfold Budget.inHand at account
  unfold Budget.held
  omega

theorem Holds.held_pos (holds : b.Holds n) : 0 < b.held :=
  Table.weight_le_total share holds

theorem Sound.drained_of_idle (sound : b.Sound 0) {t : Ticket} (asked : b.tickets.get? n = some t)
    (drain : t.want = .all) (idle : ∀ k, ¬ b.Holds k) (first : ∀ k < n, ¬ b.Queues k) :
    b.Drained n := by
  obtain ⟨want, granted⟩ := t
  obtain rfl : want = .all := drain
  cases granted with
  | true => exact asked
  | false =>
    obtain ⟨w, mem, owner, all⟩ := sound.waiter asked
    -- All that was granted came earlier, so nothing is in hand.
    have nothing : b.inHand = 0 := by
      refine Table.total_eq_zero ?_
      rintro k ⟨want, granted⟩ entry
      cases granted with
      | false => rfl
      | true =>
        cases want with
        | one => exact absurd entry (idle k)
        | all => exact absurd ⟨_, entry, .inl rfl⟩ (first k (sound.first k n .all .all entry asked))
    -- All others in line came later, so what is not free is what this one has taken.
    have line : Slots.taken b.slots.line = w.taken := by
      have earlier (v : Waiter) (mem' : v ∈ b.slots.line) : ¬ v.owner < w.owner := by
        intro before
        obtain ⟨want, waiting, -⟩ := sound.ticket mem'
        exact first v.owner (owner ▸ before) ⟨_, waiting, .inr rfl⟩
      exact sound.orderly.taken_of_first mem earlier
    have account := sound.sum
    have free := sound.orderly.busy (List.ne_nil_of_mem mem)
    have short := sound.orderly.unmet w mem
    change w.wanted = b.slots.all at all
    have le : b.slots.all ≤ b.slots.capacity := Nat.min_le_left ..
    omega

/-- A drain is through beside a slot that is held, if a request for all slots leaves one. -/
theorem drained_beside {capacity : Nat} (many : Nat.pow 2 32 ≤ capacity) :
    (after capacity [.tryTake, .ask .all]).Drained 1 ∧
      (after capacity [.tryTake, .ask .all]).Holds 0 := by
  have free : capacity ≠ 0 := by
    rintro rfl
    exact absurd many (by decide)
  have all : min capacity (Nat.pow 2 32 - 1) ≤ capacity - 1 := by omega
  simp [after, step, ofCapacity, Slots.ofCapacity, Slots.tryTake, Slots.request, Slots.amount,
    Slots.all, Drained, Holds, Table.get?_set, free, all]

/-- **Drains of an agent that has been set up.** A drain that comes first in line is through as
soon as no slot is held. While it is through, the slots that it has asked for are held by nobody;
these are all slots just if their number fits into 32 bits. -/
theorem drains_when_idle {vars : Vars} {s : Settings} (accepted : Settings.ofVars vars = .ok s) :
    (∀ events n t, (after s.concurrentJobs events).tickets.get? n = some t → t.want = .all →
      (∀ k, ¬ (after s.concurrentJobs events).Holds k) →
      (∀ k < n, ¬ (after s.concurrentJobs events).Queues k) →
        (after s.concurrentJobs events).Drained n) ∧
    (∀ events n, (after s.concurrentJobs events).Drained n →
      (after s.concurrentJobs events).held + min s.concurrentJobs (Nat.pow 2 32 - 1) ≤
        s.concurrentJobs) ∧
    ((∀ events n, (after s.concurrentJobs events).Drained n →
      ∀ k, ¬ (after s.concurrentJobs events).Holds k) ↔ s.concurrentJobs < Nat.pow 2 32) := by
  have positive := Settings.concurrentJobs_pos accepted
  have bound (events : List BudgetEvent) (n : Nat)
      (drained : (after s.concurrentJobs events).Drained n) :
      (after s.concurrentJobs events).held + min s.concurrentJobs (Nat.pow 2 32 - 1) ≤
        s.concurrentJobs := by
    obtain ⟨sound, same⟩ := sound_after positive events
    have le := sound.held_le drained
    unfold Slots.all at le
    rwa [same] at le
  refine ⟨?_, bound, ?_, ?_⟩
  · intro events n t asked drain idle first
    exact (sound_after positive events).1.drained_of_idle asked drain idle first
  · intro clean
    by_cases fits : s.concurrentJobs < Nat.pow 2 32
    · exact fits
    · obtain ⟨drained, holds⟩ := drained_beside (Nat.le_of_not_lt fits)
      exact absurd holds (clean _ _ drained 0)
  · intro fits events n drained k holds
    have le := bound events n drained
    have held := Holds.held_pos holds
    omega

theorem exists_settings {α : Type} {vars : Vars} {f : Settings → α} {x : α}
    (read : (Settings.ofVars vars).toOption.map f = some x) :
    ∃ s, Settings.ofVars vars = .ok s ∧ f s = x := by
  cases accepted : Settings.ofVars vars with
  | error e => simp [accepted, Except.toOption] at read
  | ok s => exact ⟨s, rfl, by simpa [accepted, Except.toOption] using read⟩

/-- The variables of an agent that is told only its services. -/
def services : Vars :=
  [("AGENT_STATE_ENDPOINT", "http://state"), ("AGENT_RESULTS_ENDPOINT", "http://results")]

/-- With ten slots a drain waits behind a check and is through when that has given back its slot. -/
theorem drains_behind_check : ∃ s, Settings.ofVars services = .ok s ∧
    ¬ (after s.concurrentJobs [.ask .one, .ask .all]).Drained 1 ∧
    (after s.concurrentJobs [.ask .one, .ask .all, .giveBack 0]).Drained 1 ∧
    ¬ (after s.concurrentJobs [.ask .one, .ask .all, .giveBack 0]).Holds 0 := by
  have read : (Settings.ofVars services).toOption.map (·.concurrentJobs) = some 10 := by
    decide +kernel
  obtain ⟨s, accepted, ten⟩ := exists_settings read
  obtain ⟨-, -, exact'⟩ := drains_when_idle accepted
  have drained : (after s.concurrentJobs [.ask .one, .ask .all, .giveBack 0]).Drained 1 := by
    rw [ten]
    decide
  refine ⟨s, accepted, ?_, drained, ?_⟩
  · rw [ten]
    decide
  · exact exact'.mpr (by rw [ten]; decide) _ 1 drained 0

/-- With more slots than a number of 32 bits can hold, a drain is through while a slot is held. -/
theorem drains_beside_held : ∃ s,
    Settings.ofVars (("AGENT_CONCURRENT_JOBS", "4294967296") :: services) = .ok s ∧
    s.concurrentJobs ≤ Slots.maxCapacity ∧
    (after s.concurrentJobs [.tryTake, .ask .all]).Drained 1 ∧
    (after s.concurrentJobs [.tryTake, .ask .all]).Holds 0 := by
  have read : (Settings.ofVars (("AGENT_CONCURRENT_JOBS", "4294967296") :: services)).toOption.map
      (·.concurrentJobs) = some (Nat.pow 2 32) := by decide +kernel
  obtain ⟨s, accepted, many⟩ := exists_settings read
  have beside := drained_beside (Nat.le_refl (Nat.pow 2 32))
  refine ⟨s, accepted, ?_, ?_, ?_⟩
  · rw [many]
    decide
  · rw [many]
    exact beside.1
  · rw [many]
    exact beside.2

end Budget

end CheckAgent
