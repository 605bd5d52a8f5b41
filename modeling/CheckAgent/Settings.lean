import CheckAgent.Agent.Error
import CheckAgent.Container.Spec
import CheckAgent.Fallible
import CheckAgent.Number.Decimal
import CheckAgent.Number.Unsigned
import CheckAgent.Retry.Retryer
import CheckAgent.Text.Quoted

/-!
# Settings

The agent is set up by environment variables. **A variable counts as unset** when it is blank, and
blanks around a value are dropped. The variables are read in a fixed order, and the first one that
is wrong is reported. The variables for checks are handed on as they are.
-/

namespace CheckAgent

open CheckAgent.Number CheckAgent.Text

/-- Everything that can be set. -/
structure Settings where
  concurrentJobs : Nat
  defaultTimeout : Span
  maxNoMessages : Span
  logLevel : String
  logFile : Option String
  port : Nat
  interface : String
  shutdownTimeout : Span
  registryServer : Option String
  registryUser : String
  registryPassword : String
  registryInterval : Span
  registryMaxRetries : Nat
  registryJitter : Binary
  retries : Nat
  retryInterval : Span
  stateEndpoint : String
  resultsEndpoint : String
  reportTimeout : Span
  abortListUrl : Option String
  checkVars : Vars
  deriving DecidableEq, Repr

namespace Settings

/-- What the names of the variables for checks begin with. -/
def checkVarMark : List Char := "AGENT_CHECKVAR_".toList

/-- The value of a variable without the blanks around it, unless nothing is left. -/
def value? (vars : Vars) (key : String) : Option String :=
  ((vars.get? key).map strip).filter (· ≠ "")

/-- A variable that is read by a given rule. -/
def parsed {α : Type} (vars : Vars) (key : String) (default : α)
    (rule : List Char → Except String α) : Except SettingsError α :=
  match value? vars key with
  | none => .ok default
  | some raw =>
    (rule raw.toList).mapError fun m => .invalid key (Quoted.ofString raw ++ ": " ++ m)

/-- The rule for whole numbers of some bits. -/
def unsigned (bits : Nat) (cs : List Char) : Except String Nat :=
  (Unsigned.read (maxOfBits bits) cs).mapError Unsigned.Error.message

/-- The rule for fractions. -/
def fraction (cs : List Char) : Except String Binary :=
  match Decimal.readBinary? binary64 cs with
  | some b => .ok b
  | none => .error "invalid float literal"

def number (vars : Vars) (key : String) (bits default : Nat) : Except SettingsError Nat :=
  parsed vars key default (unsigned bits)

def seconds (vars : Vars) (key : String) (default : Nat) : Except SettingsError Span :=
  Span.ofSeconds <$> number vars key 64 default

def required (vars : Vars) (key : String) : Except SettingsError String :=
  match value? vars key with
  | some v => .ok v
  | none => .error (.missing key)

/-- The name of a variable for checks, if a variable is one. -/
def checkVarName? (key : String) : Option String :=
  let cs := key.toList
  if checkVarMark.isPrefixOf cs ∧ checkVarMark.length < cs.length then
    some (String.ofList (cs.drop checkVarMark.length))
  else none

/-- The variables for checks with their values as they are. -/
def checkVarsOf (vars : Vars) : Vars :=
  vars.filterMap fun (key, value) => (checkVarName? key).map fun name => (name, value)

/-- Number of checks at a time; zero is refused. -/
def concurrentJobsOf (vars : Vars) : Except SettingsError Nat := do
  let n ← number vars "AGENT_CONCURRENT_JOBS" 64 10
  if n = 0 then throw (.invalid "AGENT_CONCURRENT_JOBS" "must be greater than zero") else pure n

/-- Spread of the delays between pulls, from none to the whole delay. -/
def registryJitterOf (vars : Vars) : Except SettingsError Binary := do
  let key := "AGENT_REGISTRY_BACKOFF_JITTER_FACTOR"
  let jitter ← parsed vars key Policy.defaultJitter fraction
  if (binary64.zero false).le jitter ∧ jitter.le (binary64.ofNat 1) then pure jitter
  else
    throw (.invalid key (Decimal.ofBinary binary64 Decimal.plain jitter ++ " is outside 0.0..=1.0"))

def ofVars (vars : Vars) : Except SettingsError Settings := do
  let text (key default : String) := (value? vars key).getD default
  let concurrentJobs ← concurrentJobsOf vars
  let defaultTimeout ← seconds vars "AGENT_TIMEOUT_SECS" 600
  let maxNoMessages ← seconds vars "AGENT_MAX_NO_MSGS_INTERVAL_SECS" 180
  let port ← number vars "AGENT_API_PORT" 16 8080
  let shutdownTimeout ← seconds vars "AGENT_API_SHUTDOWN_TIMEOUT_SECS" 10
  let registryJitter ← registryJitterOf vars
  let registryInterval ← seconds vars "AGENT_REGISTRY_BACKOFF_INTERVAL_SECS" 5
  let registryMaxRetries ← number vars "AGENT_REGISTRY_BACKOFF_MAX_RETRIES" 32 5
  let retries ← number vars "AGENT_RETRIES" 32 5
  let retryInterval ← seconds vars "AGENT_RETRY_INTERVAL_SECS" 2
  let stateEndpoint ← required vars "AGENT_STATE_ENDPOINT"
  let resultsEndpoint ← required vars "AGENT_RESULTS_ENDPOINT"
  let reportTimeout ← seconds vars "AGENT_REPORT_TIMEOUT_SECS" 30
  pure {
    concurrentJobs, defaultTimeout, maxNoMessages, port, shutdownTimeout, registryJitter
    registryInterval, registryMaxRetries, retries, retryInterval, stateEndpoint, resultsEndpoint
    reportTimeout
    logLevel := text "AGENT_LOG_LEVEL" "info"
    logFile := value? vars "AGENT_LOG_FILE"
    interface := text "AGENT_API_IFACE" "docker0"
    registryServer := value? vars "AGENT_REGISTRY_SERVER"
    registryUser := text "AGENT_REGISTRY_USER" ""
    registryPassword := text "AGENT_REGISTRY_PASS" ""
    abortListUrl := value? vars "AGENT_ABORTED_CHECKS_URL"
    checkVars := checkVarsOf vars }

theorem concurrentJobsOf_pos {vars : Vars} {n : Nat} (read : concurrentJobsOf vars = .ok n) :
    0 < n := by
  obtain ⟨m, -, rest⟩ := bind_eq_ok_iff.mp read
  split at rest
  · cases rest
  · next positive =>
    cases rest
    exact Nat.pos_of_ne_zero positive

/-- Settings that are accepted leave room for a check. -/
theorem concurrentJobs_pos {vars : Vars} {s : Settings} (accepted : ofVars vars = .ok s) :
    0 < s.concurrentJobs := by
  unfold ofVars at accepted
  obtain ⟨n, read, accepted⟩ := bind_eq_ok_iff.mp accepted
  iterate 12 obtain ⟨_, -, accepted⟩ := bind_eq_ok_iff.mp accepted
  cases accepted
  exact concurrentJobsOf_pos read

def pullRetryer (s : Settings) : Retryer :=
  ⟨(Policy.doubling s.registryInterval s.registryMaxRetries).withJitter s.registryJitter,
    s.registryMaxRetries⟩

def retryer (s : Settings) : Retryer := .doubling s.retries s.retryInterval

end Settings

end CheckAgent
