import CheckAgent.Number.Binary
import CheckAgent.Time.Span

/-!
# Backoff policies

Between two attempts a caller waits. **The delays** of a policy grow by a factor from a first
interval up to a cap, and the policy hands out only so many of them. They are computed in binary
floating point: the interval in seconds times a power of the factor, cut off at the cap, and
rounded to whole nanoseconds.

**Jitter** spreads a delay by a fraction of itself in both directions. A policy says how far; where
in that range a delay falls is left to chance, so that the offset is an input here.
-/

namespace CheckAgent

open CheckAgent.Number

/-- Whether another attempt can help. -/
inductive FailureKind where
  | transient
  | permanent
  deriving DecidableEq, Repr

/-- Why there is no span. -/
inductive SpanFault where
  /-- A number of seconds is below zero. -/
  | negative
  /-- A number of seconds is too large, or none. -/
  | tooLarge
  /-- Nothing can be drawn from a range. -/
  | emptyRange
  deriving DecidableEq, Repr

def SpanFault.message : SpanFault → String
  | .negative => "cannot convert float seconds to Duration: value is negative"
  | .tooLarge => "cannot convert float seconds to Duration: value is either too big or NaN"
  | .emptyRange => "cannot sample empty range"

namespace Span

/-- A span in seconds: whole seconds and the decimals are converted one by one. -/
def toBinary (s : Span) : Binary :=
  (binary64.ofNat s.seconds).add binary64
    ((binary64.ofNat (s.nanos % 1000000000)).div binary64 (binary64.ofNat 1000000000))

/-- The span of a number of seconds, to the nearest nanosecond, a tie going to the even one. -/
def ofBinary : Binary → Except SpanFault Span
  | .nan | .infinite false => .error .tooLarge
  | .infinite true => .error .negative
  | .finite s m e =>
    if s ∧ m ≠ 0 then .error .negative
    else
      let r := Binary.ratio m e
      let nanos := roundHalfEven (r.1 * 1000000000) r.2
      if nanos < Nat.pow 2 64 * 1000000000 then .ok ⟨nanos⟩ else .error .tooLarge

end Span

/-- How long to wait between attempts. -/
structure Policy where
  /-- The first delay. -/
  interval : Span
  /-- The factor between a delay and the next one. -/
  multiplier : Binary
  /-- The spread of a delay, as a fraction of it. -/
  jitter : Binary
  /-- The cap of a delay. -/
  maxInterval : Span
  /-- The number of delays. -/
  maxRetries : Nat
  /-- The time after which no more delays are handed out. -/
  maxElapsed : Option Span
  deriving DecidableEq, Repr

/-- What a policy answers to a request for a delay. -/
inductive NextDelay where
  | exhausted
  | delay (span : Span)
  | fault (why : SpanFault)
  deriving DecidableEq, Repr

namespace Policy

/-- One twentieth, the spread of a policy that names none. -/
def defaultJitter : Binary := binary64.round false 1 20

/-- The cap of a policy that names none. -/
def defaultMaxInterval : Span := .ofSeconds 300

/-- Delays that double from an interval on. -/
def doubling (interval : Span) (maxRetries : Nat) : Policy where
  interval
  multiplier := binary64.ofNat 2
  jitter := defaultJitter
  maxInterval := defaultMaxInterval
  maxRetries
  maxElapsed := none

/-- The policy with another spread, which is moved between zero and one. -/
def withJitter (p : Policy) (jitter : Binary) : Policy :=
  { p with jitter := jitter.clamp (binary64.zero false) (binary64.ofNat 1) }

/-- How much the `n`-th delay has grown. The exponent of the factor is `n` as a number of 32 bits
with a sign, so that it is below zero from `2 ^ 31` on. -/
def growth (p : Policy) (n : Nat) : Binary :=
  if n < Nat.pow 2 31 then p.multiplier.pow binary64 n
  else (binary64.ofNat 1).div binary64 (p.multiplier.pow binary64 (Nat.pow 2 32 - n))

/-- The `n`-th delay without jitter. -/
def baseDelay (p : Policy) (n : Nat) : Except SpanFault Span :=
  Span.ofBinary <|
    (p.interval.toBinary.mul binary64 (p.growth n)).minNum p.maxInterval.toBinary

/-- The answer to a request for the `n`-th delay when some time has passed. -/
def next (p : Policy) (n : Nat) (elapsed : Span) : NextDelay :=
  if p.maxRetries ≤ n then .exhausted
  else if p.maxElapsed.any (·.nanos ≤ elapsed.nanos) then .exhausted
  else
    match p.baseDelay n with
    | .ok d => .delay d
    | .error f => .fault f

/-- How far jitter may move a delay, in seconds; nothing at or below zero moves it. -/
def spread (p : Policy) (delay : Span) : Binary := delay.toBinary.mul binary64 p.jitter

/-- A delay moved by an offset within its spread, but not below zero. There is no offset if none can
be drawn. -/
def move (p : Policy) (delay : Span) (offset : Option Binary) : Except SpanFault Span :=
  let spread := p.spread delay
  if spread.le (binary64.zero false) then .ok delay
  else
    match offset with
    | some o =>
      Span.ofBinary
        ((delay.toBinary.add binary64 (o.clamp spread.neg spread)).maxNum (binary64.zero false))
    | none => .error .emptyRange

/-- Whether the policy never moves a delay. -/
def isSteady (p : Policy) : Bool := p.jitter.isZero

/-- The first delays of a fresh cursor, requested without any time passing. Once a delay has no
span the cursor is of no further use. -/
def delays (p : Policy) (count : Nat) : Except SpanFault (List (Option Span)) :=
  (List.range count).foldlM
    (fun given n =>
      match p.next (min n p.maxRetries) ⟨0⟩ with
      | .exhausted => .ok (given ++ [none])
      | .delay d => .ok (given ++ [some d])
      | .fault f => .error f)
    []

end Policy

end CheckAgent
