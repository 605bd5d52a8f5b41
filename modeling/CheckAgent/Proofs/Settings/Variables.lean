import Mathlib.Data.List.Nodup
import CheckAgent.Proofs.Number.Grammar
import CheckAgent.Proofs.Number.Order
import CheckAgent.Proofs.Text.Blank
import CheckAgent.Settings
import CheckAgent.Table

/-!
# Settings are read variable by variable

Each setting has a variable of its own, and the reading is **a list of variables** in a fixed order
(`readingOrder`), each with what its text has to look like and which value it stands for (`Means`).
That carries the proof: nothing is known of a variable but that its reading depends on its own text,
gives just the values that the text means, and blames the variable otherwise. The reading as a
whole goes on with the values it has, but whether and how it fails does not depend on them, so it
fails as the first variable of the list that does (`failure?_ofVars`).

**Main result** (`read_by_variable`). A map of variables is accepted if both endpoints are there,
what is there of numbers are numbers, some checks may run, and the spread is between none and the
whole; then each setting is what its variable means. Otherwise the error names the first variable
that is wrong, and what comes behind it does not matter. Blanks around a value do not matter either,
and a blank variable counts as unset; but variables for checks are handed on as they are.
-/

namespace CheckAgent

open CheckAgent.Number CheckAgent.Text

/-- An error that names a variable: it is missing if it is unset, and its text is wrong if not. -/
inductive SettingsError.Blames (key : String) : Option String → SettingsError → Prop
  | missing : Blames key none (.missing key)
  | invalid (raw message : String) : Blames key (some raw) (.invalid key message)

namespace Settings

open SettingsError (Blames)

variable {vars vars' : Vars} {s s' : Settings}

/-! ## Single variables -/

/-- A variable with its setting, and what its text means for that. -/
structure Variable where
  key : String
  {Value : Type}
  /-- How the variable is read. -/
  read : Vars → Except SettingsError Value
  /-- The setting that it is for. -/
  get : Settings → Value
  /-- The values that are meant by a text without the blanks around it, or by none. -/
  Means : Option String → Value → Prop
  /-- The variable is read from its own text alone. -/
  own : ∀ vars vars', value? vars key = value? vars' key → read vars = read vars'
  read_iff : ∀ vars a, read vars = .ok a ↔ Means (value? vars key) a
  /-- It is named when it is refused. -/
  blames : ∀ vars e, read vars = .error e → Blames key (value? vars key) e

/-- What is meant where a text stands for a value by itself, and no text for a default. -/
def Gives {α : Type} (default : α) (Denotes : String → α → Prop) : Option String → α → Prop
  | none, a => a = default
  | some raw, a => Denotes raw a

section

variable {α : Type} {key : String} {default a : α} {rule : List Char → Except String α}
  {Denotes : String → α → Prop} {e : SettingsError}

theorem parsed_congr (same : value? vars key = value? vars' key) :
    parsed vars key default rule = parsed vars' key default rule := by
  rw [parsed, parsed, same]

theorem parsed_eq_ok_iff (reads : ∀ raw a, rule raw.toList = .ok a ↔ Denotes raw a) :
    parsed vars key default rule = .ok a ↔ Gives default Denotes (value? vars key) a := by
  unfold parsed
  cases value? vars key with
  | none => simp [Gives, eq_comm]
  | some raw => exact mapError_eq_ok_iff.trans (reads raw a)

theorem blames_of_parsed (refused : parsed vars key default rule = .error e) :
    Blames key (value? vars key) e := by
  unfold parsed at refused
  cases said : value? vars key with
  | none =>
    rw [said] at refused
    cases refused
  | some raw =>
    rw [said] at refused
    obtain ⟨message, -, rfl⟩ := mapError_eq_error_iff.mp refused
    exact .invalid raw _

/-- A variable that is read by a rule, and then refused if its value lacks a property. -/
def checked (vars : Vars) (key : String) (default : α) (rule : List Char → Except String α)
    (Holds : α → Prop) [DecidablePred Holds] (message : α → String) : Except SettingsError α := do
  let a ← parsed vars key default rule
  if Holds a then pure a else throw (.invalid key (message a))

variable {Holds : α → Prop} [DecidablePred Holds] {message : α → String}

theorem checked_congr (same : value? vars key = value? vars' key) :
    checked vars key default rule Holds message = checked vars' key default rule Holds message := by
  rw [checked, checked, parsed_congr same]

theorem checked_eq_ok_iff (holds : Holds default)
    (reads : ∀ raw a, rule raw.toList = .ok a ↔ Denotes raw a) :
    checked vars key default rule Holds message = .ok a ↔
      Gives default (fun raw a => Denotes raw a ∧ Holds a) (value? vars key) a := by
  have passes (a b : α) :
      (if Holds a then pure a else throw (.invalid key (message a)) : Except SettingsError α) =
        .ok b ↔ Holds a ∧ a = b := by
    split
    · next holds => simp [holds, pure, Except.pure]
    · next fails => exact ⟨nofun, fun ⟨holds, _⟩ => absurd holds fails⟩
  simp only [checked, bind_eq_ok_iff, parsed_eq_ok_iff reads, passes, exists_eq_right_right]
  cases value? vars key with
  | none => exact ⟨And.left, fun same => ⟨same, same.symm ▸ holds⟩⟩
  | some raw => exact Iff.rfl

theorem blames_of_checked (holds : Holds default)
    (refused : checked vars key default rule Holds message = .error e) :
    Blames key (value? vars key) e := by
  rcases bind_eq_error_iff.mp refused with refused | ⟨a, read, refused⟩
  · exact blames_of_parsed refused
  split at refused
  · cases refused
  · next fails =>
    cases refused
    cases said : value? vars key with
    | some raw => exact .invalid raw _
    | none =>
      -- the default passes its own check
      rw [parsed, said] at read
      cases read
      exact absurd holds fails

end

/-- The text of a whole number of some bits. -/
def IsNumber (bits : Nat) (raw : String) (n : Nat) : Prop :=
  Unsigned.Denotes raw.toList n ∧ n < 2 ^ bits

theorem unsigned_eq_ok_iff (bits : Nat) (raw : String) (n : Nat) :
    unsigned bits raw.toList = .ok n ↔ IsNumber bits raw n := by
  have positive := Nat.two_pow_pos bits
  rw [unsigned, mapError_eq_ok_iff, Unsigned.read_eq_ok_iff, IsNumber, maxOfBits, Nat.pow_eq]
  exact and_congr_right fun _ => by omega

theorem fraction_eq_ok_iff (raw : String) (b : Binary) :
    fraction raw.toList = .ok b ↔ Fraction binary64 raw.toList b := by
  rw [← Decimal.readBinary?_eq_some_iff, fraction]
  cases Decimal.readBinary? binary64 raw.toList <;> simp

/-- A number from nothing to one. -/
def InUnit (b : Binary) : Prop := ∃ x, b.value? = some x ∧ 0 ≤ x ∧ x ≤ 1

theorem inUnit_iff {b : Binary} :
    (binary64.zero false).le b = true ∧ b.le (binary64.ofNat 1) = true ↔ InUnit b := by
  have zero : (binary64.zero false).value? = some 0 := by simp [Format.zero, Binary.value?]
  have one : (binary64.ofNat 1).value? = some 1 := by
    have whole : binary64.ofNat 1 = .finite false (2 ^ 52) (-52) := by decide
    rw [whole, Binary.value?]
    norm_num
  exact Binary.between_iff zero one

instance : DecidablePred InUnit := fun _ => decidable_of_iff _ inUnit_iff

theorem concurrentJobsOf_eq (vars : Vars) :
    concurrentJobsOf vars = checked vars "AGENT_CONCURRENT_JOBS" 10 (unsigned 64) (· ≠ 0)
      fun _ => "must be greater than zero" := by
  simp only [concurrentJobsOf, checked, number, ite_not]

theorem registryJitterOf_eq (vars : Vars) :
    registryJitterOf vars =
      checked vars "AGENT_REGISTRY_BACKOFF_JITTER_FACTOR" Policy.defaultJitter fraction InUnit
        fun jitter => Decimal.ofBinary binary64 Decimal.plain jitter ++ " is outside 0.0..=1.0" :=
  congrArg (Except.bind _) (funext fun _ => if_congr inUnit_iff rfl rfl)

theorem defaultJitter_inUnit : InUnit Policy.defaultJitter := by
  have nearest : Policy.defaultJitter = .finite false 7205759403792794 (-57) := by decide
  rw [nearest, InUnit]
  simp only [Binary.value?, Option.some.injEq, exists_eq_left']
  norm_num

/-! ## The variables in the order in which they are read -/

namespace Variable

def text (key default : String) (get : Settings → String) : Variable where
  key := key
  read vars := .ok ((value? vars key).getD default)
  get := get
  Means said a := a = said.getD default
  own _ _ same := by rw [same]
  read_iff vars a := by simp [eq_comm]
  blames _ _ refused := nomatch refused

def optional (key : String) (get : Settings → Option String) : Variable where
  key := key
  read vars := .ok (value? vars key)
  get := get
  Means said a := a = said
  own _ _ same := by rw [same]
  read_iff vars a := by simp [eq_comm]
  blames _ _ refused := nomatch refused

def needed (key : String) (get : Settings → String) : Variable where
  key := key
  read vars := required vars key
  get := get
  Means said a := said = some a
  own _ _ same := by rw [required, required, same]
  read_iff vars a := by
    unfold required
    cases value? vars key <;> simp
  blames vars e refused := by
    unfold required at refused
    cases said : value? vars key with
    | none =>
      rw [said] at refused
      cases refused
      exact .missing
    | some a =>
      rw [said] at refused
      cases refused

def whole (key : String) (bits default : Nat) (get : Settings → Nat) : Variable where
  key := key
  read vars := number vars key bits default
  get := get
  Means := Gives default (IsNumber bits)
  own _ _ := parsed_congr
  read_iff _ _ := parsed_eq_ok_iff (unsigned_eq_ok_iff bits)
  blames _ _ := blames_of_parsed

def secs (key : String) (default : Nat) (get : Settings → Span) : Variable where
  key := key
  read vars := seconds vars key default
  get := get
  Means said t := ∃ n, Gives default (IsNumber 64) said n ∧ .ofSeconds n = t
  own _ _ same := congrArg (Span.ofSeconds <$> ·) (parsed_congr same)
  read_iff _ _ := map_eq_ok_iff.trans
    (exists_congr fun _ => and_congr_left' (parsed_eq_ok_iff (unsigned_eq_ok_iff 64)))
  blames _ _ refused := blames_of_parsed (map_eq_error_iff.mp refused)

def jobs : Variable where
  key := "AGENT_CONCURRENT_JOBS"
  read := concurrentJobsOf
  get := concurrentJobs
  Means := Gives 10 fun raw n => IsNumber 64 raw n ∧ n ≠ 0
  own vars vars' same := by
    rw [concurrentJobsOf_eq, concurrentJobsOf_eq, checked_congr same]
  read_iff vars n := by
    rw [concurrentJobsOf_eq, checked_eq_ok_iff (by decide) (unsigned_eq_ok_iff 64)]
  blames vars e refused := by
    rw [concurrentJobsOf_eq] at refused
    exact blames_of_checked (by decide) refused

/-- The spread of the delays between pulls. -/
def jitter : Variable where
  key := "AGENT_REGISTRY_BACKOFF_JITTER_FACTOR"
  read := registryJitterOf
  get := registryJitter
  Means := Gives Policy.defaultJitter fun raw b => Fraction binary64 raw.toList b ∧ InUnit b
  own vars vars' same := by
    rw [registryJitterOf_eq, registryJitterOf_eq, checked_congr same]
  read_iff vars b := by
    rw [registryJitterOf_eq, checked_eq_ok_iff defaultJitter_inUnit fraction_eq_ok_iff]
  blames vars e refused := by
    rw [registryJitterOf_eq] at refused
    exact blames_of_checked defaultJitter_inUnit refused

/-- The variable has a text that means something, or has none and need not. -/
def Fits (v : Variable) (vars : Vars) : Prop := ∃ a, v.Means (value? vars v.key) a

theorem fits_iff {v : Variable} : v.Fits vars ↔ failure? (v.read vars) = none := by
  rw [failure?_eq_none_iff]
  exact exists_congr fun a => (v.read_iff vars a).symm

end Variable

/-- Every variable with a setting, in the order in which they are read. -/
def readingOrder : List Variable := [
  .jobs,
  .secs "AGENT_TIMEOUT_SECS" 600 defaultTimeout,
  .secs "AGENT_MAX_NO_MSGS_INTERVAL_SECS" 180 maxNoMessages,
  .text "AGENT_LOG_LEVEL" "info" logLevel,
  .optional "AGENT_LOG_FILE" logFile,
  .whole "AGENT_API_PORT" 16 8080 port,
  .text "AGENT_API_IFACE" "docker0" interface,
  .secs "AGENT_API_SHUTDOWN_TIMEOUT_SECS" 10 shutdownTimeout,
  .jitter,
  .optional "AGENT_REGISTRY_SERVER" registryServer,
  .text "AGENT_REGISTRY_USER" "" registryUser,
  .text "AGENT_REGISTRY_PASS" "" registryPassword,
  .secs "AGENT_REGISTRY_BACKOFF_INTERVAL_SECS" 5 registryInterval,
  .whole "AGENT_REGISTRY_BACKOFF_MAX_RETRIES" 32 5 registryMaxRetries,
  .whole "AGENT_RETRIES" 32 5 retries,
  .secs "AGENT_RETRY_INTERVAL_SECS" 2 retryInterval,
  .needed "AGENT_STATE_ENDPOINT" stateEndpoint,
  .needed "AGENT_RESULTS_ENDPOINT" resultsEndpoint,
  .secs "AGENT_REPORT_TIMEOUT_SECS" 30 reportTimeout,
  .optional "AGENT_ABORTED_CHECKS_URL" abortListUrl]

/-! ## The reading as a whole -/

theorem findSome?_cons_or {α β : Type*} (f : α → Option β) (a : α) (l : List α) :
    (a :: l).findSome? f = (f a).or (l.findSome? f) := by
  rw [List.findSome?_cons]
  cases f a <;> rfl

theorem Variable.failure?_text (key default : String) (get : Settings → String) (vars : Vars) :
    failure? ((text key default get).read vars) = none := rfl

theorem Variable.failure?_optional (key : String) (get : Settings → Option String) (vars : Vars) :
    failure? ((optional key get).read vars) = none := rfl

/-- **The reading fails as the first variable that does.** -/
theorem failure?_ofVars (vars : Vars) :
    failure? (ofVars vars) = readingOrder.findSome? fun v => failure? (v.read vars) := by
  simp only [readingOrder, findSome?_cons_or, List.findSome?_nil, Variable.failure?_text,
    Variable.failure?_optional, Option.none_or]
  iterate 13 refine failure?_bind fun _ => ?_
  rfl

theorem exists_accepted_iff :
    (∃ s, ofVars vars = .ok s) ↔ ∀ v ∈ readingOrder, v.Fits vars := by
  rw [← failure?_eq_none_iff, failure?_ofVars, List.findSome?_eq_none_iff]
  simp only [Variable.fits_iff]

theorem reads_of_accepted (accepted : ofVars vars = .ok s) :
    (∀ v ∈ readingOrder, v.read vars = .ok (v.get s)) ∧ s.checkVars = checkVarsOf vars := by
  unfold ofVars at accepted
  iterate 13 obtain ⟨_, _, accepted⟩ := bind_eq_ok_iff.mp accepted
  cases accepted
  refine ⟨?_, rfl⟩
  simp only [readingOrder, List.forall_mem_cons]
  repeat' apply And.intro
  all_goals first | assumption | rfl | exact List.forall_mem_nil _

theorem eq_of_get (same : ∀ v ∈ readingOrder, v.get s = v.get s')
    (checkVars : s.checkVars = s'.checkVars) : s = s' := by
  cases s
  cases s'
  simp only [readingOrder, List.forall_mem_cons, Variable.text, Variable.optional, Variable.needed,
    Variable.whole, Variable.secs, Variable.jobs, Variable.jitter] at same checkVars
  simp only [same, checkVars]

/-- **Settings are accepted if each is what its variable means**, and the variables for checks are
those of the map. -/
theorem ofVars_eq_ok_iff : ofVars vars = .ok s ↔
    (∀ v ∈ readingOrder, v.Means (value? vars v.key) (v.get s)) ∧
      s.checkVars = checkVarsOf vars := by
  constructor
  · intro accepted
    obtain ⟨reads, checkVars⟩ := reads_of_accepted accepted
    exact ⟨fun v mem => (v.read_iff vars _).mp (reads v mem), checkVars⟩
  · rintro ⟨means, checkVars⟩
    obtain ⟨s', accepted⟩ := exists_accepted_iff.mpr fun v mem => ⟨_, means v mem⟩
    obtain ⟨reads', checkVars'⟩ := reads_of_accepted accepted
    have same (v) (mem : v ∈ readingOrder) : v.get s' = v.get s := by
      have reads := (v.read_iff vars _).mpr (means v mem)
      exact Except.ok.inj ((reads' v mem).symm.trans reads)
    rw [accepted, eq_of_get same (checkVars'.trans checkVars.symm)]

theorem ofVars_eq_error_iff {e : SettingsError} : ofVars vars = .error e ↔
    ∃ before v after, readingOrder = before ++ v :: after ∧
      v.read vars = .error e ∧ ∀ w ∈ before, w.Fits vars := by
  rw [← failure?_eq_some_iff, failure?_ofVars, List.findSome?_eq_some_iff]
  simp only [failure?_eq_some_iff, Variable.fits_iff]

/-- A refusal depends on the variable that is refused, and on those in front of it. -/
theorem error_of_same {before after : List Variable} {v : Variable} {e : SettingsError}
    (order : readingOrder = before ++ v :: after) (refused : v.read vars = .error e)
    (fit : ∀ w ∈ before, w.Fits vars)
    (same : ∀ w ∈ before ++ [v], value? vars w.key = value? vars' w.key) :
    ofVars vars' = .error e := by
  refine ofVars_eq_error_iff.mpr ⟨before, v, after, order, ?_, fun w early => ?_⟩
  · rw [← v.own vars vars' (same v (by simp)), refused]
  · rw [Variable.Fits, ← same w (by simp [early])]
    exact fit w early

/-- The settings depend on the variables that are read, and on those for checks. -/
theorem ofVars_congr (same : ∀ v ∈ readingOrder, value? vars v.key = value? vars' v.key)
    (checkVars : checkVarsOf vars = checkVarsOf vars') : ofVars vars = ofVars vars' := by
  symm
  cases read : ofVars vars with
  | ok s =>
    obtain ⟨means, told⟩ := ofVars_eq_ok_iff.mp read
    refine ofVars_eq_ok_iff.mpr ⟨fun v mem => ?_, told.trans checkVars⟩
    rw [← same v mem]
    exact means v mem
  | error e =>
    obtain ⟨before, v, after, order, refused, fit⟩ := ofVars_eq_error_iff.mp read
    refine error_of_same order refused fit fun w early => same w ?_
    rw [order, List.append_cons]
    exact List.mem_append_left after early

/-! ## What is accepted -/

theorem value?_eq_none_iff {key : String} : value? vars key = none ↔
    ∀ raw, vars.get? key = some raw → ∀ c ∈ raw.toList, isBlank c = true := by
  cases at_key : vars.get? key with
  | none => simp [value?, at_key]
  | some raw => simp [value?, at_key, strip, ← trim_eq_nil_iff]

/-- The keys of the variables that are whole numbers, with the bits of their types. -/
def numeric : List (String × Nat) := [
  ("AGENT_CONCURRENT_JOBS", 64),
  ("AGENT_TIMEOUT_SECS", 64),
  ("AGENT_MAX_NO_MSGS_INTERVAL_SECS", 64),
  ("AGENT_API_PORT", 16),
  ("AGENT_API_SHUTDOWN_TIMEOUT_SECS", 64),
  ("AGENT_REGISTRY_BACKOFF_INTERVAL_SECS", 64),
  ("AGENT_REGISTRY_BACKOFF_MAX_RETRIES", 32),
  ("AGENT_RETRIES", 32),
  ("AGENT_RETRY_INTERVAL_SECS", 64),
  ("AGENT_REPORT_TIMEOUT_SECS", 64)]

/-- What variables have to be like. -/
structure Acceptable (vars : Vars) : Prop where
  /-- Both endpoints for reports are set, and not blank. -/
  endpoints : ∀ key ∈ ["AGENT_STATE_ENDPOINT", "AGENT_RESULTS_ENDPOINT"],
    ∃ raw, vars.get? key = some raw ∧ ∃ c ∈ raw.toList, isBlank c = false
  /-- A whole number that is not blank has the text of one, and fits its type. -/
  numbers : ∀ v ∈ numeric, ∀ raw, value? vars v.1 = some raw → ∃ n, IsNumber v.2 raw n
  /-- The number of checks at a time is not zero. -/
  jobs : ∀ raw, value? vars "AGENT_CONCURRENT_JOBS" = some raw → ¬ IsNumber 64 raw 0
  /-- The spread, if not blank, is a number from nothing to one. -/
  jitter : ∀ raw, value? vars "AGENT_REGISTRY_BACKOFF_JITTER_FACTOR" = some raw →
    ∃ b, Fraction binary64 raw.toList b ∧ InUnit b

theorem exists_gives_iff {α : Type} {default : α} {Denotes : String → α → Prop}
    {said : Option String} :
    (∃ a, Gives default Denotes said a) ↔ ∀ raw, said = some raw → ∃ a, Denotes raw a := by
  cases said <;> simp [Gives]

namespace Variable

theorem fits_text (key default : String) (get : Settings → String) :
    (text key default get).Fits vars := ⟨_, rfl⟩

theorem fits_optional (key : String) (get : Settings → Option String) :
    (optional key get).Fits vars := ⟨_, rfl⟩

theorem fits_needed {key : String} {get : Settings → String} :
    (needed key get).Fits vars ↔
      ∃ raw, vars.get? key = some raw ∧ ∃ c ∈ raw.toList, isBlank c = false := by
  have set : value? vars key ≠ none ↔ _ := value?_eq_none_iff.not
  rw [Option.ne_none_iff_exists'] at set
  simpa [Fits, needed] using set

theorem fits_whole {key : String} {bits default : Nat} {get : Settings → Nat} :
    (whole key bits default get).Fits vars ↔
      ∀ raw, value? vars key = some raw → ∃ n, IsNumber bits raw n :=
  exists_gives_iff

theorem fits_secs {key : String} {default : Nat} {get : Settings → Span} :
    (secs key default get).Fits vars ↔
      ∀ raw, value? vars key = some raw → ∃ n, IsNumber 64 raw n := by
  have gives : (∃ n, Gives default (IsNumber 64) (value? vars key) n) ↔ _ := exists_gives_iff
  rw [← gives]
  exact ⟨fun ⟨_, n, gives, _⟩ => ⟨n, gives⟩, fun ⟨n, gives⟩ => ⟨_, n, gives, rfl⟩⟩

theorem fits_jobs : jobs.Fits vars ↔
    ∀ raw, value? vars "AGENT_CONCURRENT_JOBS" = some raw →
      (∃ n, IsNumber 64 raw n) ∧ ¬ IsNumber 64 raw 0 := by
  refine exists_gives_iff.trans (forall₂_congr fun raw _ => ?_)
  constructor
  · rintro ⟨n, number, positive⟩
    exact ⟨⟨n, number⟩, fun zero => positive (number.1.unique zero.1)⟩
  · rintro ⟨⟨n, number⟩, positive⟩
    exact ⟨n, number, fun zero => positive (zero ▸ number)⟩

theorem fits_jitter : jitter.Fits vars ↔
    ∀ raw, value? vars "AGENT_REGISTRY_BACKOFF_JITTER_FACTOR" = some raw →
      ∃ b, Fraction binary64 raw.toList b ∧ InUnit b :=
  exists_gives_iff

end Variable

theorem acceptable_iff : Acceptable vars ↔ ∀ v ∈ readingOrder, v.Fits vars := by
  simp only [readingOrder, List.forall_mem_cons, Variable.fits_text, Variable.fits_optional,
    Variable.fits_needed, Variable.fits_whole, Variable.fits_secs, Variable.fits_jobs,
    Variable.fits_jitter]
  constructor
  · rintro ⟨endpoints, numbers, jobs, jitter⟩
    simp only [numeric, List.forall_mem_cons] at endpoints numbers
    simp_all
  · intro fit
    constructor <;> simp_all [numeric]

/-! ## Variables for checks -/

theorem toList_marked (name : String) :
    ("AGENT_CHECKVAR_" ++ name).toList = checkVarMark ++ name.toList := String.toList_append

theorem checkVarName?_eq_some_iff {key name : String} :
    checkVarName? key = some name ↔ name ≠ "" ∧ key = "AGENT_CHECKVAR_" ++ name := by
  have some_char_iff {name : String} : 0 < name.toList.length ↔ name ≠ "" := by
    rw [List.length_pos_iff, ne_eq, String.toList_eq_nil_iff]
  rw [checkVarName?, Option.ite_none_right_eq_some, List.isPrefixOf_iff_prefix]
  constructor
  · rintro ⟨⟨⟨rest, whole⟩, long⟩, named⟩
    obtain rfl : key = "AGENT_CHECKVAR_" ++ String.ofList rest := by
      rw [← String.toList_inj, toList_marked, String.toList_ofList, whole]
    rw [toList_marked, List.length_append, Nat.lt_add_right_iff_pos] at long
    rw [toList_marked, List.drop_left, String.ofList_toList] at named
    cases named
    exact ⟨some_char_iff.mp long, rfl⟩
  · rintro ⟨some_char, rfl⟩
    rw [toList_marked, List.length_append, Nat.lt_add_right_iff_pos, List.drop_left,
      String.ofList_toList]
    exact ⟨⟨List.prefix_append _ _, some_char_iff.mpr some_char⟩, rfl⟩

theorem mem_checkVarsOf {t : Table String String} {name value : String} :
    (name, value) ∈ checkVarsOf t.entries ↔
      name ≠ "" ∧ t.get? ("AGENT_CHECKVAR_" ++ name) = some value := by
  rw [← t.mem_entries_iff]
  simp only [checkVarsOf, List.mem_filterMap, Option.map_eq_some_iff, checkVarName?_eq_some_iff]
  constructor
  · rintro ⟨⟨key, raw⟩, mem, _, ⟨some_char, marked⟩, same⟩
    cases same
    exact ⟨some_char, marked ▸ mem⟩
  · rintro ⟨some_char, mem⟩
    exact ⟨_, mem, name, ⟨some_char, rfl⟩, rfl⟩

/-- A name comes once, as a variable does. -/
theorem nodup_checkVarsOf (t : Table String String) :
    ((checkVarsOf t.entries).map (·.1)).Nodup := by
  have names : (checkVarsOf t.entries).map (·.1) =
      (t.entries.map (·.1)).filterMap checkVarName? := by
    rw [checkVarsOf, List.map_filterMap, List.filterMap_map]
    congr 1
    funext e
    simp [Function.comp_def]
  rw [names]
  refine t.nodup.filterMap fun key key' name named named' => ?_
  obtain ⟨-, rfl⟩ := checkVarName?_eq_some_iff.mp named
  obtain ⟨-, rfl⟩ := checkVarName?_eq_some_iff.mp named'
  rfl

def IsForChecks (key : String) : Prop := ∃ name ≠ "", key = "AGENT_CHECKVAR_" ++ name

theorem checkVarName?_eq_none {key : String} (plain : ¬ IsForChecks key) :
    checkVarName? key = none := by
  rw [Option.eq_none_iff_forall_ne_some]
  exact fun name named => plain ⟨name, checkVarName?_eq_some_iff.mp named⟩

/-! ## Changes of a variable -/

/-- What is left of a text without the blanks around it, if there is a text and something is. -/
def solid? (raw : Option String) : Option String := (raw.map strip).filter (· ≠ "")

section

variable {t : Table String String} {key raw : String}

theorem value?_entries (t : Table String String) (key : String) :
    value? t.entries key = solid? (t.get? key) := rfl

theorem solid?_padded {before after : String}
    (blank : ∀ c ∈ before.toList ++ after.toList, isBlank c = true) (raw : String) :
    solid? (some (before ++ (raw ++ after))) = solid? (some raw) := by
  simp only [solid?, Option.map_some, strip, String.toList_append, trim_padded blank]

theorem solid?_blank (blank : ∀ c ∈ raw.toList, isBlank c = true) :
    solid? (some raw) = solid? none := by
  simp [solid?, strip, trim_eq_nil_iff.mpr blank]

theorem checkVarsOf_erase (plain : ¬ IsForChecks key) :
    checkVarsOf (t.erase key).entries = checkVarsOf t.entries := by
  rw [checkVarsOf, checkVarsOf, Table.erase, List.filterMap_filter]
  congr 1
  funext e
  by_cases same : e.1 = key <;> simp [same, checkVarName?_eq_none plain]

theorem checkVarsOf_set (plain : ¬ IsForChecks key) (raw : String) :
    checkVarsOf (t.set key raw).entries = checkVarsOf (t.erase key).entries :=
  List.filterMap_cons_none (by simp [checkVarName?_eq_none plain])

/-- Blanks around a value are padding. -/
theorem ofVars_padded {before after : String} (plain : ¬ IsForChecks key)
    (blank : ∀ c ∈ before.toList ++ after.toList, isBlank c = true)
    (at_key : t.get? key = some raw) :
    ofVars (t.set key (before ++ (raw ++ after))).entries = ofVars t.entries := by
  refine ofVars_congr (fun v _ => ?_) ((checkVarsOf_set plain _).trans (checkVarsOf_erase plain))
  rw [value?_entries, value?_entries, Table.get?_set]
  split
  · next same => rw [same, at_key, solid?_padded blank]
  · rfl

/-- A blank variable counts as unset. -/
theorem ofVars_blank (plain : ¬ IsForChecks key) (blank : ∀ c ∈ raw.toList, isBlank c = true) :
    ofVars (t.set key raw).entries = ofVars (t.erase key).entries := by
  refine ofVars_congr (fun v _ => ?_) (checkVarsOf_set plain raw)
  rw [value?_entries, value?_entries, Table.get?_set, Table.get?_erase]
  split
  · exact solid?_blank blank
  · rfl

end

/-! ## The settings of a map -/

/-- How settings are read from a map of variables. -/
structure ReadByVariable (vars : Table String String) : Prop where
  /-- A map is accepted if its variables are as they have to be. -/
  accepted_iff : (∃ s, ofVars vars.entries = .ok s) ↔ Acceptable vars.entries
  /-- Then each setting is what its own variable means. -/
  told : ∀ s, ofVars vars.entries = .ok s →
    ∀ v ∈ readingOrder, v.Means (value? vars.entries v.key) (v.get s)
  /-- Otherwise the error names the first variable that is wrong, whatever the later ones are. -/
  refused : ∀ e, ofVars vars.entries = .error e → ∃ before v after,
    readingOrder = before ++ v :: after ∧ (∀ w ∈ before, w.Fits vars.entries) ∧
      ¬ v.Fits vars.entries ∧ SettingsError.Blames v.key (value? vars.entries v.key) e ∧
      ∀ vars' : Table String String, (∀ w ∈ before ++ [v], vars.get? w.key = vars'.get? w.key) →
        ofVars vars'.entries = .error e
  /-- Maps that are accepted agree in each setting whose own variable they agree in. -/
  own : ∀ (vars' : Table String String) (s s' : Settings), ofVars vars.entries = .ok s →
    ofVars vars'.entries = .ok s' →
      ∀ v ∈ readingOrder, vars.get? v.key = vars'.get? v.key → v.get s = v.get s'
  /-- Blanks around the value of a variable change nothing, unless it is for checks. -/
  padded : ∀ key raw before after : String, ¬ IsForChecks key →
    (∀ c ∈ before.toList ++ after.toList, isBlank c = true) → vars.get? key = some raw →
      ofVars (vars.set key (before ++ (raw ++ after))).entries = ofVars vars.entries
  /-- A blank variable acts as an unset one, unless it is for checks. -/
  blank : ∀ key raw : String, ¬ IsForChecks key → (∀ c ∈ raw.toList, isBlank c = true) →
    ofVars (vars.set key raw).entries = ofVars (vars.erase key).entries
  /-- The variables for checks are those with a name behind the mark, each once, with the values
  that they have. -/
  checkVars : ∀ s, ofVars vars.entries = .ok s → (s.checkVars.map (·.1)).Nodup ∧
    ∀ name value, (name, value) ∈ s.checkVars ↔
      name ≠ "" ∧ vars.get? ("AGENT_CHECKVAR_" ++ name) = some value

/-- **Settings are read variable by variable.** -/
theorem read_by_variable (vars : Table String String) : ReadByVariable vars where
  accepted_iff := exists_accepted_iff.trans acceptable_iff.symm
  told s accepted := (ofVars_eq_ok_iff.mp accepted).1
  refused e refused := by
    obtain ⟨before, v, after, order, refused, fit⟩ := ofVars_eq_error_iff.mp refused
    have unfit : ¬ v.Fits vars.entries := by
      rw [Variable.fits_iff, refused]
      exact Option.some_ne_none e
    refine ⟨before, v, after, order, fit, unfit, v.blames _ e refused, fun vars' same => ?_⟩
    refine error_of_same order refused fit fun w early => ?_
    rw [value?_entries, value?_entries, same w early]
  own vars' s s' accepted accepted' v mem same := by
    have read := (reads_of_accepted accepted).1 v mem
    have read' := (reads_of_accepted accepted').1 v mem
    rw [v.own _ vars'.entries (by rw [value?_entries, value?_entries, same]), read'] at read
    exact (Except.ok.inj read).symm
  padded key raw before after plain blank at_key := ofVars_padded plain blank at_key
  blank key raw plain blank := ofVars_blank plain blank
  checkVars s accepted := by
    rw [(ofVars_eq_ok_iff.mp accepted).2]
    exact ⟨nodup_checkVarsOf vars, fun name value => mem_checkVarsOf⟩

-- no number is above or below nan, and the blank endpoint is read later
example : ofVars
    [("AGENT_STATE_ENDPOINT", " "), ("AGENT_REGISTRY_BACKOFF_JITTER_FACTOR", " nan ")] =
      .error (.invalid "AGENT_REGISTRY_BACKOFF_JITTER_FACTOR" "NaN is outside 0.0..=1.0") := rfl

end Settings

end CheckAgent
