import CheckAgent.Text.Blank
import CheckAgent.Text.Utf8

/-!
# Messages as lines

A message source may be a stream of bytes with **one message a line**. A line ends at a line feed,
or at the end of the stream if it is not empty; blanks around it are dropped, and a line of nothing
else is no message. A line that is not UTF-8 ends the stream.

The bytes arrive in chunks. How the stream is cut into chunks decides when a line arrives and
nothing else. Whoever asks for a message waits for a second at most, and sees at once that the
stream is over.
-/

namespace CheckAgent

open CheckAgent.Text

namespace Lines

/-- Divide bytes at their line feeds: the lines that end, and what follows the last line feed. -/
def cut : Bytes → List Bytes × Bytes
  | [] => ([], [])
  | b :: rest =>
    match cut rest with
    | (lines, tail) =>
      if b = '\n'.toUInt8 then ([] :: lines, tail)
      else
        match lines with
        | [] => ([], b :: tail)
        | line :: lines => ((b :: line) :: lines, tail)

/-- The text of a line, without the blanks around it; nothing if it is not UTF-8. -/
def text? (line : Bytes) : Option String :=
  (Utf8.decode? line).map fun cs => String.ofList (trim cs)

end Lines

/-- The lines of a stream with the times at which they arrive, and when the stream is over. -/
structure Feed where
  lines : List (Nat × String)
  closed : Option Nat
  deriving DecidableEq, Repr

namespace Feed

/-- Append lines that arrive at one time to what has arrived. Blank ones are dropped, and the first
one that is not UTF-8 ends the stream. -/
def addLines (t : Nat) (arrived : List (Nat × String)) : List Bytes → Feed
  | [] => ⟨arrived, none⟩
  | line :: rest =>
    match Lines.text? line with
    | none => ⟨arrived, some t⟩
    | some "" => addLines t arrived rest
    | some s => addLines t (arrived ++ [(t, s)]) rest

/-- Read the chunks of a stream, of which some bytes are still without a line feed. The stream is
over with its last chunk, at time `now` if there is none, unless it stays open. -/
def ofChunksFrom (staysOpen : Bool) (now : Nat) (pending : Bytes) (arrived : List (Nat × String)) :
    List (Nat × Bytes) → Feed
  | [] =>
    if staysOpen then ⟨arrived, none⟩
    else
      let last := addLines now arrived (if pending.isEmpty then [] else [pending])
      { last with closed := some now }
  | (t, bytes) :: rest =>
    let (lines, tail) := Lines.cut (pending ++ bytes)
    let next := addLines t arrived lines
    match next.closed with
    | some _ => next
    | none => ofChunksFrom staysOpen t tail next.lines rest

/-- The lines of a stream of chunks. -/
def ofChunks (chunks : List (Nat × Bytes)) (staysOpen : Bool) : Feed :=
  ofChunksFrom staysOpen 0 [] [] chunks

/-- How long a request for a message waits, in milliseconds. -/
def patience : Nat := 1000

/-- Ask for a message at a time: the message, if there is one, when the request ends, and the rest
of the stream. -/
def receive (f : Feed) (t : Nat) : Option String × Nat × Feed :=
  match f.lines with
  | (at_, s) :: rest =>
    if at_ ≤ t + patience then (some s, max t at_, { f with lines := rest })
    else (none, t + patience, f)
  | [] =>
    match f.closed with
    | some c => (none, min (max t c) (t + patience), f)
    | none => (none, t + patience, f)

/-- Ask for messages one after the other from a time on, each with the time at which the request
ended. -/
def receives (f : Feed) (t : Nat) : Nat → List (Option String × Nat)
  | 0 => []
  | n + 1 =>
    let (message, ended, rest) := f.receive t
    (message, ended) :: receives rest ended n

end Feed

end CheckAgent
