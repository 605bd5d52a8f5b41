import CheckAgent.Job

/-!
# Runs

One run of a check: **what it is given** and **how it fails**. A run that was cancelled or that
exceeded its time limit was stopped; any other failure is the run's own.
-/

namespace CheckAgent

/-- What one run of a check is given. -/
structure RunSpec where
  checkId : String
  checktype : Checktype
  image : String
  target : String
  assetType : String
  options : String
  requiredVars : List String
  timeLimit : Span
  deriving DecidableEq, Repr

/-- The run that a job asks for. -/
def RunSpec.ofJob (j : Job) (default : Span) : RunSpec where
  checkId := j.checkId
  checktype := Image.checktype j.image
  image := j.image
  target := j.target
  assetType := j.assetType
  options := j.options
  requiredVars := j.requiredVars
  timeLimit := j.timeLimit default

end CheckAgent
