import CheckAgent.Intake.Activity

/-!
# Idle tracking

An idle tracker watches the activity of the reader and ends **once the reader has been idle for
long enough**, or when it is cancelled. A reader that waits for a slot is never idle. When the
reader is gone nothing is left to watch, and only a cancellation ends the tracker.

Of an event and a deadline at one instant, the event comes first.
-/

namespace CheckAgent

/-- How an idle tracker ends. -/
inductive IdleEnd where
  | idle
  | cancelled
  | broken
  deriving DecidableEq, Repr

/-- Why a tracker breaks: it has no deadline to wait for. -/
def deadlineFault : String := "overflow when adding duration to instant"

/-- What a tracker observes. -/
inductive TrackerEvent where
  /-- The reader is active. -/
  | touch
  /-- The reader begins to wait for a slot. -/
  | wait
  /-- The reader no longer waits. -/
  | unwait
  /-- The reader is gone. -/
  | gone
  | cancel
  deriving DecidableEq, Repr

/-- What a tracker knows of the reader. -/
structure Tracker where
  activity : Activity
  gone : Bool
  deriving DecidableEq, Repr

namespace Tracker

/-- A tracker of a reader that was active at time zero. -/
def start : Tracker := ⟨.touched 0, false⟩

/-- Take in what happens at a time, other than a cancellation. Nothing is seen of a reader that is
gone. -/
def observe (k : Tracker) (t : Nat) (event : TrackerEvent) : Tracker :=
  if k.gone then k
  else
    match event with
    | .touch => { k with activity := .touched t }
    | .wait => { k with activity := k.activity.waiting }
    | .unwait => { k with activity := { k.activity with waitingForSlot := false } }
    | .gone => { k with gone := true }
    | .cancel => k

/-- When and how the tracker ends if nothing happens after `now`. -/
def due? (k : Tracker) (maxIdle : Span) (now : Nat) : Option (Nat × IdleEnd) :=
  if k.gone then none
  else
    (k.activity.deadline? maxIdle).map fun d =>
      if k.activity.hasDeadline maxIdle then (max now d, .idle) else (now, .broken)

/-- When and how the tracker ends, given the events after `now` in their order; nothing if it does
not end. -/
def followFrom (maxIdle : Span) (k : Tracker) (now : Nat) :
    List (Nat × TrackerEvent) → Option (Nat × IdleEnd)
  | [] => k.due? maxIdle now
  | (t, event) :: rest =>
    match (k.due? maxIdle now).filter fun e => decide (e.1 < t) with
    | some e => some e
    | none =>
      if event = .cancel then some (t, .cancelled)
      else followFrom maxIdle (k.observe t event) (max now t) rest

/-- When and how a tracker ends that begins at time zero. Events may be given in any order; those
of one instant happen in the order in which they are given. -/
def follow (maxIdle : Span) (events : List (Nat × TrackerEvent)) : Option (Nat × IdleEnd) :=
  followFrom maxIdle start 0 (events.mergeSort fun a b => decide (a.1 ≤ b.1))

end Tracker

end CheckAgent
