import CheckAgent.Retry.Policy

/-!
# Retrying

A retryer repeats an operation that failed for a transient reason, as often as **its ceiling and
its policy** both allow, with a delay of the policy before each repetition. A cancellation ends a
delay, never an attempt, and the last failure is then the outcome.

`verdict` decides after a failed attempt. `run` follows a whole operation on a clock: attempt `i`
takes a given time and has a given outcome, and a wait of a span takes the time that `clock` says.
The deadline of a policy and its jitter do not follow from that: what they come to after each
attempt is an input, a `Chance`.
-/

namespace CheckAgent

open CheckAgent.Number

/-- A policy with a ceiling on the number of retries. -/
structure Retryer where
  policy : Policy
  ceiling : Nat
  deriving DecidableEq, Repr

/-- What bears on the decision after a failed attempt. -/
structure Chance where
  /-- The time that has passed since the first attempt, as the deadline of the policy sees it. -/
  elapsed : Span
  /-- The offset of the delay, if one can be drawn. -/
  offset : Option Binary
  deriving DecidableEq, Repr

/-- No deadline passes, and no delay is moved. -/
def Chance.plain : Chance := ⟨⟨0⟩, some (binary64.zero false)⟩

/-- What to do after a failed attempt. -/
inductive Verdict where
  | giveUp
  | retryAfter (delay : Span)
  | fault (why : SpanFault)
  deriving DecidableEq, Repr

inductive Ending (ε α : Type) where
  | done (value : α)
  | failed (error : ε)
  | fault (why : SpanFault)
  deriving DecidableEq, Repr

/-- The course of an operation: when its attempts began, when it ended, and how. -/
structure Course (ε α : Type) where
  starts : List Nat
  ended : Nat
  ending : Ending ε α
  deriving DecidableEq, Repr

namespace Retryer

/-- A retryer that doubles its delays from an interval on. -/
def doubling (retries : Nat) (interval : Span) : Retryer :=
  ⟨.doubling interval retries, retries⟩

/-- The largest number of retries of one operation. -/
def limit (r : Retryer) : Nat := min r.ceiling r.policy.maxRetries

/-- What to do after attempt number `i` failed. -/
def verdict (r : Retryer) (i : Nat) (kind : FailureKind) (chance : Chance) : Verdict :=
  match kind with
  | .permanent => .giveUp
  | .transient =>
    if i = r.ceiling then .giveUp
    else
      match r.policy.next i chance.elapsed with
      | .exhausted => .giveUp
      | .fault f => .fault f
      | .delay d =>
        match r.policy.move d chance.offset with
        | .ok d => .retryAfter d
        | .error f => .fault f

variable {ε α : Type}

/-- Follow an operation from attempt `i` at time `t` on, with at most `fuel` retries. -/
def runFrom (r : Retryer) (clock : Span → Nat) (kind : ε → FailureKind)
    (attempt : Nat → Nat × Except ε α) (chance : Nat → Chance) (cancelAt : Option Nat) :
    Nat → Nat → Nat → Course ε α
  | fuel, i, t =>
    let ended := t + (attempt i).1
    match (attempt i).2 with
    | .ok a => ⟨[t], ended, .done a⟩
    | .error e =>
      match r.verdict i (kind e) (chance i) with
      | .giveUp => ⟨[t], ended, .failed e⟩
      | .fault f => ⟨[t], ended, .fault f⟩
      | .retryAfter d =>
        if cancelAt.any (· ≤ ended + clock d) then
          ⟨[t], max ended (cancelAt.getD 0), .failed e⟩
        else
          match fuel with
          | 0 => ⟨[t], ended, .failed e⟩
          | fuel + 1 =>
            let rest :=
              runFrom r clock kind attempt chance cancelAt fuel (i + 1) (ended + clock d)
            ⟨t :: rest.starts, rest.ended, rest.ending⟩

/-- Follow an operation from time zero on. -/
def run (r : Retryer) (clock : Span → Nat) (kind : ε → FailureKind)
    (attempt : Nat → Nat × Except ε α) (chance : Nat → Chance) (cancelAt : Option Nat) :
    Course ε α :=
  runFrom r clock kind attempt chance cancelAt r.limit 0 0

end Retryer

end CheckAgent
