import CheckAgent.Run.Spec

/-!
# Container specifications

The container of a check is told what it checks through **its environment**: seven fixed
variables, and then the variables that the job requires, with the values that the agent is
configured with. A required variable without a configured value is empty.

`Env.lookup` reads an environment the way a runtime does, so that laws about the list can be
stated as laws about what a check sees.
-/

namespace CheckAgent

/-- Configured variables by name. -/
abbrev Vars := List (String × String)

namespace Vars

def get? (vars : Vars) (name : String) : Option String :=
  (vars.find? (·.1 = name)).map (·.2)

end Vars

namespace Env

def entry (name value : String) : String := name ++ "=" ++ value

/-- The name and the value of an entry, divided at its first equals sign. -/
def parts (entry : String) : String × String :=
  match Text.splitFirst? '=' entry.toList with
  | some (name, value) => (String.ofList name, String.ofList value)
  | none => (entry, "")

/-- The value of a variable in an environment; a later entry wins. -/
def lookup (env : List String) (name : String) : Option String :=
  ((env.map parts).reverse.find? (·.1 = name)).map (·.2)

/-- The entries for the variables that a job requires. -/
def required (names : List String) (vars : Vars) : List String :=
  names.map fun n => entry n ((vars.get? n).getD "")

end Env

/-- The names of the variables that every check has. -/
def checkIdVar : String := "VULCAN_CHECK_ID"
def checktypeNameVar : String := "VULCAN_CHECKTYPE_NAME"
def checktypeVersionVar : String := "VULCAN_CHECKTYPE_VERSION"
def checkTargetVar : String := "VULCAN_CHECK_TARGET"
def checkAssetTypeVar : String := "VULCAN_CHECK_ASSET_TYPE"
def checkOptionsVar : String := "VULCAN_CHECK_OPTIONS"
def agentAddressVar : String := "VULCAN_AGENT_ADDRESS"

/-- What a container is made from. -/
structure ContainerSpec where
  image : String
  hostname : String
  env : List String
  deriving DecidableEq, Repr

namespace ContainerSpec

/-- The variables that every check has, with their values for one run. -/
def fixedVars (run : RunSpec) (agentAddress : String) : Vars := [
  (checkIdVar, run.checkId),
  (checktypeNameVar, run.checktype.name),
  (checktypeVersionVar, run.checktype.version),
  (checkTargetVar, run.target),
  (checkAssetTypeVar, run.assetType),
  (checkOptionsVar, run.options),
  (agentAddressVar, agentAddress)]

def ofRun (run : RunSpec) (agentAddress : String) (vars : Vars) : ContainerSpec where
  image := run.image
  hostname := run.checkId
  env := (fixedVars run agentAddress).map (fun (n, v) => Env.entry n v) ++
    Env.required run.requiredVars vars

end ContainerSpec

end CheckAgent
