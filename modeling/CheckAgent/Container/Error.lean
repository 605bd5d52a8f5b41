import CheckAgent.Retry.Policy

/-!
# Errors of the container runtime

An object that does not exist will not come into being by asking again; every other failure of the
runtime may pass.
-/

namespace CheckAgent

inductive ContainerError where
  | connect (message : String)
  | operation (name target message : String)
  | notFound (target : String)
  deriving DecidableEq, Repr

namespace ContainerError

/-- Whether a call may be tried again. -/
def kind : ContainerError → FailureKind
  | .notFound _ => .permanent
  | .connect _ | .operation _ _ _ => .transient

def message : ContainerError → String
  | .connect m => "Docker connection failed: " ++ m
  | .operation n t m => "Docker operation " ++ n ++ " for " ++ t ++ " failed: " ++ m
  | .notFound t => "Docker object " ++ t ++ " not found"

end ContainerError

end CheckAgent
