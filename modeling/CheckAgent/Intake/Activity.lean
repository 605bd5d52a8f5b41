import CheckAgent.Time.Span

/-!
# Reader activity

The reader of the queue leaves a record of what it does: **when it was last active**, and whether
it is waiting for a slot. Reading a message makes it active, and so does getting a slot after
having had to wait for one. Times are milliseconds of a clock that starts at zero.

A reader that does not wait counts as idle from **its deadline** on. The clock shows only so many
seconds, and a deadline beyond them does not exist.
-/

namespace CheckAgent

/-- What the reader is doing. -/
structure Activity where
  last : Nat
  waitingForSlot : Bool
  deriving DecidableEq, Repr

/-- The seconds that the clock can show: a signed number of 64 bits. -/
def clockSeconds : Nat := Nat.pow 2 63

namespace Activity

def touched (t : Nat) : Activity := ⟨t, false⟩

def waiting (a : Activity) : Activity := { a with waitingForSlot := true }

/-- Whether the clock can show the instant at which a reader becomes idle. -/
def hasDeadline (a : Activity) (maxIdle : Span) : Bool :=
  (Span.ofMillis a.last).nanos + maxIdle.nanos < clockSeconds * 1000000000

/-- The time at which a reader becomes idle if nothing changes; never, while it waits. -/
def deadline? (a : Activity) (maxIdle : Span) : Option Nat :=
  if a.waitingForSlot then none else some (a.last + maxIdle.millisUp)

/-- How many whole seconds ago a reader was active. -/
def secondsSince (a : Activity) (now : Nat) : Nat := (now - a.last) / 1000

end Activity

end CheckAgent
