import CheckAgent.AbortList
import CheckAgent.Check.State
import CheckAgent.Intake.Message
import CheckAgent.Run.Error
import CheckAgent.Run.Spec

/-!
# Processing a message

A call of the runner deals with one message. It goes through stages, and **between two stages**
anything may happen elsewhere: other calls, aborts, callbacks. The stages that wait for somebody
else name in `Answer` what they wait for; the others go on by themselves.

The check of the message may have been aborted before it starts, it may be running already, or it
is run: then `RUNNING` is reported, the run ends in some way, its output is uploaded, and the final
state is reported. The message is deleted exactly if that last report is accepted. A message that
holds no job is deleted, one whose check may have been aborted or not is kept.
-/

namespace CheckAgent

open CheckAgent.Text

/-- Where a call is. -/
inductive Stage where
  | received
  /-- The list of aborted checks is consulted. -/
  | lookingUp (job : Job) (lookup : Lookup)
  /-- The check is to be registered. -/
  | admitted (job : Job)
  /-- `RUNNING` has been sent. -/
  | announcing (job : Job)
  | running (job : Job)
  /-- The run has ended, and the check is still registered. -/
  | ended (job : Job) (outcome : Except RunError Bytes)
  /-- The output has been sent. The check will have the status. -/
  | uploading (job : Job) (status : Status)
  /-- The last state has been sent. -/
  | concluding (state : CheckState)
  | done (disposition : Disposition)
  /-- The call will never end. -/
  | broken

/-- What a call may wait for. -/
inductive Answer where
  /-- Nothing: the call goes on by itself. -/
  | onward
  /-- What came of a request for the list of aborted checks. -/
  | exchange (exchange : Exchange) (chance : Chance)
  /-- The end of a delay. -/
  | rested
  /-- Whether a state was accepted. -/
  | accepted (ok : Bool)
  /-- How the run ended. -/
  | outcome (outcome : Except RunError Bytes)
  /-- The link to the output, if it was accepted. -/
  | link (url : Option String)

/-- A call: its message, its stage, and whether an abort reached its run. -/
structure Call where
  message : Message
  stage : Stage
  aborted : Bool

namespace Stage

/-- The job of a call whose check is registered. -/
def registered? : Stage → Option Job
  | .announcing job | .running job | .ended job _ => some job
  | _ => none

def isOver : Stage → Bool
  | .done _ | .broken => true
  | _ => false

end Stage

/-- The final status of a run that gave no output. -/
def RunError.status : RunError → Status
  | .timeout _ _ => .timeout
  | .cancelled _ => .aborted
  | _ => .failed

end CheckAgent
