import CheckAgent.Agent.Error

/-!
# The agent's address

Check containers reach the agent at the first IPv4 address of a configured network interface. An
interface appears once for each of its addresses, of which some are of other families.
-/

namespace CheckAgent

/-- One address of a network interface: its name, and the text of the address if it is IPv4. -/
structure InterfaceAddress where
  name : String
  ipv4 : Option String
  deriving DecidableEq, Repr

/-- The address and the port at which checks reach the agent. -/
def agentAddress (addresses : List InterfaceAddress) (interface : String) (port : Nat) :
    Except AddressError String :=
  let own := addresses.filter (·.name = interface)
  match own.findSome? (·.ipv4) with
  | some ip => .ok (ip ++ ":" ++ toString port)
  | none => .error (if own.isEmpty then .interfaceNotFound interface else .noIpv4 interface)

end CheckAgent
