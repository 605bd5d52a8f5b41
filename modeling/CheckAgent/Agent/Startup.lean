import CheckAgent.AbortList
import CheckAgent.Agent.Address
import CheckAgent.Agent.LogFile
import CheckAgent.Container.Engine
import CheckAgent.Container.Run
import CheckAgent.Report
import CheckAgent.Settings
import CheckAgent.Slots

/-!
# Startup

The agent reads its settings, greets, and then gets ready part by part: its own address, the
container engine, the list of aborted checks, and the port that it listens at. **The first part
that fails** is the failure of the agent. With settings that cannot be read there is no greeting
and no log file.
-/

namespace CheckAgent

/-- What the agent finds on its machine. -/
structure Machine where
  interfaces : List InterfaceAddress
  /-- Whether there is a socket at a path. -/
  hasSocket : String → Bool
  /-- Why the agent cannot listen at a port, if so. -/
  portFault : Nat → Option String

/-- An agent that is ready to work. -/
structure ReadyAgent where
  settings : Settings
  host : ContainerHost
  /-- The registry of the images, if they are to be pulled. -/
  registry : Option Registry
  abortList : Option AbortList
  reporter : Reporter

namespace Settings

/-- The slots for checks, or why there cannot be so many. -/
def slots (s : Settings) : Except String Slots := Slots.make s.concurrentJobs

def registry? (s : Settings) : Option Registry :=
  s.registryServer.map fun server => ⟨server, s.registryUser, s.registryPassword⟩

/-- The list of aborted checks, if a service has one. -/
def abortList? (s : Settings) : Except AbortListError (Option AbortList) :=
  match s.abortListUrl with
  | none => .ok none
  | some url => some <$> AbortList.ofAddress url s.retryer

def reporter (s : Settings) : Reporter := ⟨s.stateEndpoint, s.resultsEndpoint, s.retryer⟩

end Settings

namespace ReadyAgent

/-- The variable that names the host of the container engine. -/
def engineHostVar : String := "DOCKER_HOST"

def ofSettings (m : Machine) (engineHost : Option String) (s : Settings) :
    Except AgentError ReadyAgent := do
  let address ← (agentAddress m.interfaces s.interface s.port).mapError .address
  let socket := Engine.socket engineHost
  (Engine.connect socket (m.hasSocket socket)).mapError .container
  let abortList ← s.abortList?.mapError .abortList
  match m.portFault s.port with
  | some reason => throw (.shutdown (.server reason))
  | none => pure {
      settings := s, abortList, registry := s.registry?, reporter := s.reporter
      host := ⟨address, s.checkVars, s.registry?.map fun _ => s.pullRetryer⟩ }

end ReadyAgent

/-- How an agent starts: what it says, where its log goes, and the agent if it is ready. -/
structure Startup where
  said : String
  logFile : Option LogFile
  agent? : Option ReadyAgent

namespace Startup

def version : String := "0.1.0"

def greeting (s : Settings) : String :=
  "🛰️  Scan agent v" ++ version ++ "\n" ++
  "   Concurrent jobs: " ++ toString s.concurrentJobs ++ "\n" ++
  "   API: http://0.0.0.0:" ++ toString s.port ++ "\n"

def complaint (message : String) : String := "Error: " ++ message ++ "\n"

/-- Start with the variables of the environment. -/
def ofVars (m : Machine) (vars : Vars) : Startup :=
  match Settings.ofVars vars with
  | .error e => ⟨complaint e.message, none, none⟩
  | .ok s =>
    let logFile := s.logFile.map LogFile.ofPath
    match ReadyAgent.ofSettings m (vars.get? ReadyAgent.engineHostVar) s with
    | .error e => ⟨greeting s ++ complaint e.message, logFile, none⟩
    | .ok agent => ⟨greeting s, logFile, some agent⟩

/-- The exit status, as far as the start decides it. -/
def status (s : Startup) : Nat := if s.agent?.isSome then 0 else 1

end Startup

end CheckAgent
