import CheckAgent.Container.Error
import CheckAgent.Time.Span

/-!
# Failures of a run

A run fails **at one of its stages**, for which the container runtime gives the reason, or it is
stopped: by a cancellation or by its time limit. A run whose result never arrives was dropped.
-/

namespace CheckAgent

/-- Why a run gave no output. -/
inductive RunError where
  | pull (checkId image : String) (source : ContainerError)
  | create (checkId : String) (source : ContainerError)
  | start (checkId : String) (source : ContainerError)
  | wait (checkId : String) (source : ContainerError)
  | logs (checkId : String) (source : ContainerError)
  | cancelled (checkId : String)
  | timeout (checkId : String) (limit : Span)
  | dropped (checkId : String)
  deriving DecidableEq, Repr

namespace RunError

/-- Whether the run was stopped from outside. -/
def isStop : RunError → Bool
  | .cancelled _ | .timeout _ _ => true
  | _ => false

def message : RunError → String
  | .pull c i s => "Error pulling image " ++ i ++ " for check " ++ c ++ ": " ++ s.message
  | .create c s => "Error creating container for check " ++ c ++ ": " ++ s.message
  | .start c s => "Error starting container for check " ++ c ++ ": " ++ s.message
  | .wait c s => "Error running container for check " ++ c ++ ": " ++ s.message
  | .logs c s => "Error reading logs for check " ++ c ++ ": " ++ s.message
  | .cancelled c => "Check " ++ c ++ " cancelled"
  | .timeout c l => "Check " ++ c ++ " timed out after " ++ l.text
  | .dropped c => "Check " ++ c ++ " run task ended without a result"

end RunError

end CheckAgent
