import CheckAgent.Run.Error

/-!
# Errors of the agent

Each part of the agent fails in its own way; `AgentError` is the sum of them, worded with the part
that failed in front. **Requests to services** are retried while their failure is transient: a lost
connection, and for reports an answer with a status of 500 or above.
-/

namespace CheckAgent

inductive SettingsError where
  | missing (key : String)
  | invalid (key message : String)
  | io (message : String)
  deriving DecidableEq, Repr

def SettingsError.message : SettingsError → String
  | .missing k => "Missing required environment variable: " ++ k
  | .invalid k m => "Invalid configuration value for " ++ k ++ ": " ++ m
  | .io m => "IO error: " ++ m

inductive AbortListError where
  | invalidAddress (address reason : String)
  | lost (reason : String)
  | unexpectedStatus (status : Nat)
  | undecodable (reason : String)
  deriving DecidableEq, Repr

namespace AbortListError

/-- Whether a lookup may be tried again. -/
def kind : AbortListError → FailureKind
  | .lost _ => .transient
  | .invalidAddress _ _ | .unexpectedStatus _ | .undecodable _ => .permanent

def message : AbortListError → String
  | .invalidAddress a r => "Invalid aborted checks address " ++ a ++ ": " ++ r
  | .lost r => "Request for aborted checks failed: " ++ r
  | .unexpectedStatus s =>
    "Error getting current aborted checks, unexpected status code: " ++ toString s
  | .undecodable r => "Error reading current aborted checks: " ++ r

end AbortListError

inductive JobError where
  | invalidMessage (messageId reason : String)
  | notRunning (checkId : String)
  deriving DecidableEq, Repr

def JobError.message : JobError → String
  | .invalidMessage m r => "Invalid job message " ++ m ++ ": " ++ r
  | .notRunning c => "Check " ++ c ++ " is not running"

inductive QueueError where
  | receive (reason : String)
  | delete (id reason : String)
  | cancelled
  | task (reason : String)
  deriving DecidableEq, Repr

namespace QueueError

/-- Whether the reading was only asked to stop. -/
def isCancelled : QueueError → Bool
  | .cancelled => true
  | _ => false

def message : QueueError → String
  | .receive r => "Error receiving message: " ++ r
  | .delete i r => "Error deleting message " ++ i ++ ": " ++ r
  | .cancelled => "Queue reading cancelled"
  | .task r => "Queue task failed: " ++ r

end QueueError

inductive ReportError where
  | lost (endpoint reason : String)
  | unexpectedStatus (endpoint : String) (status : Nat)
  | invalidResponse (endpoint reason : String)
  deriving DecidableEq, Repr

namespace ReportError

/-- Whether a report may be tried again. -/
def kind : ReportError → FailureKind
  | .lost _ _ => .transient
  | .unexpectedStatus _ s => if 500 ≤ s then .transient else .permanent
  | .invalidResponse _ _ => .permanent

def message : ReportError → String
  | .lost e r => "Report request to " ++ e ++ " failed: " ++ r
  | .unexpectedStatus e s => "Report request to " ++ e ++ " returned status " ++ toString s
  | .invalidResponse e r => "Invalid report response from " ++ e ++ ": " ++ r

end ReportError

inductive AddressError where
  | interfaceNotFound (name : String)
  | noIpv4 (name : String)
  deriving DecidableEq, Repr

def AddressError.message : AddressError → String
  | .interfaceNotFound n => "Network interface " ++ n ++ " not found"
  | .noIpv4 n => "Failed to determine agent IPv4 address on interface " ++ n

/-- An unclean shutdown of the listener. -/
inductive ShutdownError where
  | listenerTimeout (limit : Span)
  | server (reason : String)
  | panicked (task reason : String)
  deriving DecidableEq, Repr

def ShutdownError.message : ShutdownError → String
  | .listenerTimeout l => "HTTP listener did not shut down within " ++ l.text
  | .server r => "HTTP server stopped with error: " ++ r
  | .panicked t r => "Task " ++ t ++ " panicked: " ++ r

inductive AgentError where
  | settings (e : SettingsError)
  | abortList (e : AbortListError)
  | container (e : ContainerError)
  | run (e : RunError)
  | job (e : JobError)
  | queue (e : QueueError)
  | report (e : ReportError)
  | address (e : AddressError)
  | shutdown (e : ShutdownError)
  deriving DecidableEq, Repr

def AgentError.message : AgentError → String
  | .settings e => "Configuration error: " ++ e.message
  | .abortList e => "Aborted checks error: " ++ e.message
  | .container e => "Container driver error: " ++ e.message
  | .run e => "Run error: " ++ e.message
  | .job e => "Job error: " ++ e.message
  | .queue e => "Queue error: " ++ e.message
  | .report e => "Report error: " ++ e.message
  | .address e => "Agent address error: " ++ e.message
  | .shutdown e => "Shutdown error: " ++ e.message

end CheckAgent
