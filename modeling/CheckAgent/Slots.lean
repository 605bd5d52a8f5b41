/-!
# Slots

The agent runs as many checks at a time as it has slots. Whoever wants slots **waits in line**: a
request that cannot be met takes the slots that are free and waits for the rest of what it wants,
and a slot that is given back goes to the first in line. So there are free slots only while nobody
waits. A request that is withdrawn gives back what it has taken.

A request for all slots is how the agent waits until no check runs. It asks for no more slots than
a number of 32 bits can hold.
-/

namespace CheckAgent

/-- A request that waits: who made it, how many slots it wants, and how many of them it has. -/
structure Waiter where
  owner : Nat
  wanted : Nat
  taken : Nat
  deriving DecidableEq, Repr

/-- A number of slots, those of them that are free, and the requests that wait. -/
structure Slots where
  capacity : Nat
  free : Nat
  line : List Waiter
  deriving DecidableEq, Repr

namespace Slots

/-- The largest number of slots that there can be. -/
def maxCapacity : Nat := Nat.pow 2 61 - 1

/-- What is said of a larger number of slots. -/
def capacityFault : String :=
  "a semaphore may not have more than MAX_PERMITS permits (" ++ toString maxCapacity ++ ")"

def ofCapacity (n : Nat) : Slots := ⟨n, n, []⟩

/-- Make a number of slots, unless there cannot be so many. -/
def make (n : Nat) : Except String Slots :=
  if n ≤ maxCapacity then .ok (ofCapacity n) else .error capacityFault

/-- The number of slots that a request for all slots asks for. -/
def all (s : Slots) : Nat := min s.capacity (Nat.pow 2 32 - 1)

def tryTake (s : Slots) : Option Slots :=
  if s.free = 0 then none else some { s with free := s.free - 1 }

/-- Request slots, and whether the request is met at once. -/
def request (s : Slots) (owner wanted : Nat) : Slots × Bool :=
  if wanted ≤ s.free then ({ s with free := s.free - wanted }, true)
  else ({ s with free := 0, line := s.line ++ [⟨owner, wanted, s.free⟩] }, false)

/-- Hand slots to the requests in line: those that are met, the ones that wait on, and the slots
left over. -/
def serve : Nat → List Waiter → List Nat × List Waiter × Nat
  | n, [] => ([], [], n)
  | n, w :: rest =>
    if w.taken + n < w.wanted then ([], { w with taken := w.taken + n } :: rest, 0)
    else
      let (met, waiting, left) := serve (n - (w.wanted - w.taken)) rest
      (w.owner :: met, waiting, left)

/-- Give back slots, and who gets slots by it. -/
def release (s : Slots) (n : Nat) : Slots × List Nat :=
  let (met, waiting, left) := serve n s.line
  ({ s with free := s.free + left, line := waiting }, met)

/-- Withdraw a request that waits, and who gets slots by it. -/
def withdraw (s : Slots) (owner : Nat) : Slots × List Nat :=
  match s.line.find? (·.owner = owner) with
  | none => (s, [])
  | some w => { s with line := s.line.filter (·.owner ≠ owner) }.release w.taken

/-- Whether a request for all slots would be met at once. -/
def isIdle (s : Slots) : Bool := s.all ≤ s.free

/-- Those who are served and those who wait on make up the line, in its order. -/
theorem owners_serve (n : Nat) (line : List Waiter) :
    (serve n line).1 ++ (serve n line).2.1.map (·.owner) = line.map (·.owner) := by
  induction line generalizing n with
  | nil => rfl
  | cons w rest ih =>
    unfold serve
    split
    · rfl
    · exact congrArg (w.owner :: ·) (ih _)

theorem owners_release (s : Slots) (n : Nat) :
    (s.release n).2 ++ (s.release n).1.line.map (·.owner) = s.line.map (·.owner) :=
  owners_serve n s.line

@[simp] theorem capacity_release (s : Slots) (n : Nat) :
    (s.release n).1.capacity = s.capacity := rfl

@[simp] theorem capacity_request (s : Slots) (owner wanted : Nat) :
    (s.request owner wanted).1.capacity = s.capacity := by
  unfold request
  split <;> rfl

@[simp] theorem capacity_withdraw (s : Slots) (owner : Nat) :
    (s.withdraw owner).1.capacity = s.capacity := by
  unfold withdraw
  split <;> rfl

theorem capacity_tryTake {s s' : Slots} (takes : s.tryTake = some s') :
    s'.capacity = s.capacity ∧ s'.line = s.line := by
  unfold tryTake at takes
  split at takes
  · cases takes
  · cases takes
    exact ⟨rfl, rfl⟩

end Slots

end CheckAgent
