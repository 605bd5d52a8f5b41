import CheckAgent.Text.Blank

/-!
# Services

The agent asks services over HTTP. **An exchange** is one request as seen by the one who asks: the
connection may fail before or after the service has seen the request, or there is an answer with a
status and a body. `Service` is a service whose answers are known in advance, in order, the last
one repeated.
-/

namespace CheckAgent

open CheckAgent.Text

/-- What comes of a request. -/
inductive Exchange where
  /-- The service never saw the request. -/
  | unreachable (reason : String)
  /-- The service saw the request, and no answer came. -/
  | lost (reason : String)
  | answered (status : Nat) (body : Bytes)
  deriving DecidableEq, Repr

namespace Exchange

/-- Whether the service saw the request. -/
def isSeen : Exchange → Bool
  | .unreachable _ => false
  | .lost _ | .answered _ _ => true

def isSuccess (status : Nat) : Bool := 200 ≤ status && status < 300

end Exchange

/-- A service with its answers in order. -/
structure Service where
  exchanges : List Exchange
  deriving DecidableEq, Repr

namespace Service

/-- The exchange of request number `i`. A service without answers says nothing, successfully. -/
def exchange (s : Service) (i : Nat) : Exchange :=
  s.exchanges[i]?.getD (s.exchanges.getLast?.getD (.answered 200 []))

/-- How many of the first `n` requests the service saw. -/
def seen (s : Service) (n : Nat) : Nat :=
  ((List.range n).filter fun i => (s.exchange i).isSeen).length

end Service

end CheckAgent
