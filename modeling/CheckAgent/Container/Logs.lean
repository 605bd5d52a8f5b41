import CheckAgent.Container.Error
import CheckAgent.Text.Blank

/-!
# Container output

A container writes to two streams, which arrive as one sequence of frames. **The output of a run**
is everything of the first stream, a line feed, and everything of the second; the first error among
the frames takes its place.
-/

namespace CheckAgent

open CheckAgent.Text

inductive LogFrame where
  | stdout (bytes : Bytes)
  | stderr (bytes : Bytes)
  deriving DecidableEq, Repr

/-- Frames as they arrive, until an error. -/
abbrev LogStream := List (Except ContainerError LogFrame)

namespace LogStream

/-- Append the frames to what has been read of the two streams. -/
def collectFrom (out err : Bytes) : LogStream → Except ContainerError Bytes
  | [] => .ok (out ++ '\n'.toUInt8 :: err)
  | .ok (.stdout bs) :: rest => collectFrom (out ++ bs) err rest
  | .ok (.stderr bs) :: rest => collectFrom out (err ++ bs) rest
  | .error e :: _ => .error e

def collect (frames : LogStream) : Except ContainerError Bytes := collectFrom [] [] frames

end LogStream

end CheckAgent
