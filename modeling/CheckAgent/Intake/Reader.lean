import CheckAgent.Intake.Activity
import CheckAgent.Intake.Message
import CheckAgent.Slots
import CheckAgent.Table

/-!
# Reading the queue

The reader asks the queue for messages **while it holds a slot**, and hands each message on together
with the slot, which is given back when the message has been dealt with. Where there is no message,
or asking fails, it gives the slot back and pauses. When it is cancelled it reads nothing more, and
it ends once all slots are free again.

`Reader.step` is the machine. Its events are what the source, the clock and those who deal with the
messages do, each at a time; messages are known by numbers.
-/

namespace CheckAgent

/-- What asking for a message gives. -/
inductive Received where
  | message (message : Message)
  | nothing
  | failed

/-- Where the reader is. -/
inductive ReaderPhase where
  /-- About to look for a slot. -/
  | seeking
  /-- In line for a slot. -/
  | waiting
  /-- Holding a slot and asking for a message. -/
  | receiving
  /-- Holding nothing until it is time to ask again. -/
  | pausing
  /-- In line for all slots. -/
  | draining
  | finished
  deriving DecidableEq, Repr

/-- How far a message is. Each holds a slot. -/
inductive Handling where
  | processing
  | deleting
  deriving DecidableEq, Repr

/-- The reader with its slots and the messages in flight. -/
structure Reader where
  phase : ReaderPhase
  cancelled : Bool
  slots : Slots
  activity : Activity
  inFlight : Table Nat (Message × Handling)
  /-- The number of the next message. -/
  next : Nat

inductive ReaderEvent where
  /-- The reader looks for a slot. -/
  | seek
  | received (what : Received)
  /-- The pause is over. -/
  | rested
  | cancel
  /-- A message has been dealt with. -/
  | processed (n : Nat) (disposition : Disposition)
  /-- A message has been deleted, or could not be deleted. -/
  | deleted (n : Nat)

/-- What the reader does. -/
inductive ReaderEffect where
  /-- It asks the queue for a message. -/
  | ask
  | process (n : Nat) (message : Message)
  | delete (n : Nat) (message : Message)
  deriving DecidableEq, Repr

namespace Reader

/-- The names under which the reader stands in line: for a slot, and for all of them. -/
def forOne : Nat := 0
def forAll : Nat := 1

/-- A reader that begins at time zero. -/
def start (capacity : Nat) : Reader where
  phase := .seeking
  cancelled := false
  slots := .ofCapacity capacity
  activity := .touched 0
  inFlight := .empty
  next := 0

/-- End the reading, having all slots. -/
def finish (r : Reader) : Reader :=
  { r with phase := .finished, slots := (r.slots.release r.slots.all).1 }

/-- Wait for all slots, holding none. -/
def drain (r : Reader) : Reader :=
  let (slots, met) := r.slots.request forAll r.slots.all
  if met then { r with slots }.finish else { r with slots, phase := .draining }

/-- Ask for a message, holding a slot. -/
def ask (r : Reader) : Reader × List ReaderEffect := ({ r with phase := .receiving }, [.ask])

/-- Look for a slot. -/
def seek (r : Reader) : Reader × List ReaderEffect :=
  match r.slots.tryTake with
  | some slots => if r.cancelled then (r.drain, []) else { r with slots }.ask
  | none =>
    let r := { r with activity := r.activity.waiting }
    if r.cancelled then (r.drain, [])
    else ({ r with phase := .waiting, slots := (r.slots.request forOne 1).1 }, [])

/-- Give back the slot of a message that has been dealt with. -/
def giveBack (r : Reader) (t : Nat) (n : Nat) : Reader × List ReaderEffect :=
  let (slots, met) := r.slots.release 1
  let r := { r with slots, inFlight := r.inFlight.erase n }
  if forOne ∈ met then { r with activity := .touched t }.ask
  else if forAll ∈ met then (r.finish, [])
  else (r, [])

/-- Take in what asking for a message gave. -/
def receive (r : Reader) (t : Nat) : Received → Reader × List ReaderEffect
  | .message m =>
    ({ r with
        phase := .seeking
        activity := .touched t
        inFlight := r.inFlight.set r.next (m, .processing)
        next := r.next + 1 },
      [.process r.next m])
  | .nothing | .failed => ({ r with phase := .pausing, slots := (r.slots.release 1).1 }, [])

/-- Read nothing more. -/
def cancel (r : Reader) : Reader :=
  let r := { r with cancelled := true }
  match r.phase with
  | .waiting => { r with slots := (r.slots.withdraw forOne).1 }.drain
  | .receiving => { r with slots := (r.slots.release 1).1 }.drain
  | .pausing => r.drain
  | .seeking | .draining | .finished => r

/-- What an event at a time makes of the reader, and what the reader does; nothing if the event
cannot happen. -/
def step (r : Reader) (t : Nat) : ReaderEvent → Option (Reader × List ReaderEffect)
  | .seek => if r.phase = .seeking then some r.seek else none
  | .received what => if r.phase = .receiving then some (r.receive t what) else none
  | .rested => if r.phase = .pausing then some ({ r with phase := .seeking }, []) else none
  | .cancel => some (r.cancel, [])
  | .processed n disposition =>
    match r.inFlight.get? n with
    | some (m, .processing) =>
      match disposition with
      | .delete => some ({ r with inFlight := r.inFlight.set n (m, .deleting) }, [.delete n m])
      | .keep => some (r.giveBack t n)
    | _ => none
  | .deleted n =>
    match r.inFlight.get? n with
    | some (_, .deleting) => some (r.giveBack t n)
    | _ => none

end Reader

end CheckAgent
