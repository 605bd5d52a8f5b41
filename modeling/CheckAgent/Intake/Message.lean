/-!
# Queue messages

A queue delivers each message **at least once**: it comes again until it is deleted. What is to
become of a message that has been dealt with is its disposition.
-/

namespace CheckAgent

/-- A message of the queue. -/
structure Message where
  id : String
  body : String
  deriving DecidableEq, Repr

/-- What becomes of a message that has been dealt with. -/
inductive Disposition where
  /-- The message must not come again. -/
  | delete
  /-- The message stays in the queue. -/
  | keep
  deriving DecidableEq, Repr

end CheckAgent
