import CheckAgent.Agent.Startup
import Std.Async.TCP
import Std.Internal.UV.System
import Std.Net.Addr

/-!
# The command line

The agent takes no arguments: it is set up by its environment. This module looks at the machine,
lets `Startup` decide, and says and does what follows from it. The container engine listens at a
socket in the file system, and this program can open none, so an agent that is ready ends there.
-/

namespace CheckAgent.Machine

/-- Whether there is something at a path. -/
def hasEntry (path : String) : IO Bool := do
  try
    discard <| IO.FS.Handle.mk path .read
    pure true
  catch
    | .noFileOrDirectory .. => pure false
    | _ => pure true

/-- Why the agent cannot listen at a port, if so. -/
def portFault? (port : Nat) : IO (Option String) := do
  try
    let server ← Std.Async.TCP.Socket.Server.mk
    server.bind (.v4 ⟨.ofParts 0 0 0 0, port.toUInt16⟩)
    server.listen 1
    pure none
  catch e => pure (some (toString e))

/-- The addresses of the network interfaces. -/
def interfaceAddresses : IO (List InterfaceAddress) := do
  let found ← Std.Net.interfaceAddresses
  pure <| found.toList.map fun i => ⟨i.name, match i.address with
    | .v4 address => some (toString address)
    | .v6 _ => none⟩

/-- Look at the machine, as far as settings make use of it. -/
def observe (vars : Vars) : IO Machine := do
  let socket := Engine.socket (vars.get? ReadyAgent.engineHostVar)
  let socketIsThere ← hasEntry socket
  let port := (Settings.ofVars vars).toOption.map (·.port)
  let fault ← match port with
    | some p => portFault? p
    | none => pure none
  pure {
    interfaces := ← interfaceAddresses
    hasSocket := fun path => path = socket && socketIsThere
    portFault := fun p => if port = some p then fault else none }

end CheckAgent.Machine

namespace CheckAgent.LogFile

/-- Make the file, and its folder if it is missing. -/
def make (f : LogFile) : IO Unit := do
  let path := f.folder ++ "/" ++ f.name
  try discard <| IO.FS.Handle.mk path .append
  catch _ =>
    IO.FS.createDirAll f.folder
    discard <| IO.FS.Handle.mk path .append

end CheckAgent.LogFile

namespace CheckAgent

/-- Start the agent. Of several variables with one name the last one counts. -/
def run : IO UInt32 := do
  let vars := (← Std.Internal.UV.System.osEnviron).toList.reverse
  let startup := Startup.ofVars (← Machine.observe vars) vars
  startup.logFile.forM LogFile.make
  IO.eprint startup.said
  if startup.agent?.isSome then
    let fault := ContainerError.connect "no way to open the socket of the engine"
    IO.eprint (Startup.complaint (AgentError.container fault).message)
    pure 1
  else pure startup.status.toUInt32

end CheckAgent

/-- The command. -/
def main : IO UInt32 := CheckAgent.run
