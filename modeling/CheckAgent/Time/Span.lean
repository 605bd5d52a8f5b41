/-!
# Lengths of time

A span is a whole number of nanoseconds. **Its text** names the largest unit that the span fills,
with as many decimals as it needs: `1.5s`, `250ms`, `0ns`.
-/

namespace CheckAgent

/-- A length of time. -/
structure Span where
  nanos : Nat
  deriving DecidableEq, Repr, Inhabited

namespace Span

def ofSeconds (n : Nat) : Span := ⟨n * 1000000000⟩

def ofMillis (n : Nat) : Span := ⟨n * 1000000⟩

/-- Whole seconds, the rest dropped. -/
def seconds (s : Span) : Nat := s.nanos / 1000000000

/-- Whole milliseconds, the rest dropped. -/
def millis (s : Span) : Nat := s.nanos / 1000000

/-- Whole milliseconds, any rest counting as one more: how long a clock of milliseconds waits. -/
def millisUp (s : Span) : Nat := (s.nanos + 999999) / 1000000

/-- The decimals of `n / 10 ^ places`, without zeros at the end. -/
def decimals (n places : Nat) : List Char :=
  let ds := Nat.toDigits 10 n
  let padded := List.replicate (places - ds.length) '0' ++ ds
  (padded.reverse.dropWhile (· = '0')).reverse

/-- A number of units with its decimals. -/
def amount (n : Nat) (places : Nat) (unit : String) : String :=
  let scale := Nat.pow 10 places
  let fraction := if n % scale = 0 then [] else '.' :: decimals (n % scale) places
  toString (n / scale) ++ String.ofList fraction ++ unit

def text (s : Span) : String :=
  if 1000000000 ≤ s.nanos then amount s.nanos 9 "s"
  else if 1000000 ≤ s.nanos then amount s.nanos 6 "ms"
  else if 1000 ≤ s.nanos then amount s.nanos 3 "µs"
  else amount s.nanos 0 "ns"

end Span

end CheckAgent
