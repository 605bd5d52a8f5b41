import CheckAgent.Container.Spec
import CheckAgent.Proofs.Text.Blank

/-!
# What a check reads in its environment

The environment of a check is a list of entries, and whoever reads it divides each entry at its
first equals sign and lets a later entry win. **A required name is written into an entry as it is**,
so an equals sign in it ends the name that is read: the entry for `NAME=text` sets `NAME`, to the
text and one more equals sign and the value of the required name. The variable that a required name
sets is its `target`, and what it is set to its `content`.

The entries for the required names stand behind the fixed ones, and nothing keeps them apart. So
**each variable is what the last required name with that target makes of it**, and what the agent
assigned if there is none (`lookup_ofRun`).

Main result: `environment_read`. A variable of the agent has the value that was assigned to it
unless a required name sets it, and every other variable that is read is a required name with its
configured value, or is set by a required name with an equals sign in it. Both exceptions are in the
environment of `agent_variables_overridden`.
-/

namespace CheckAgent

open CheckAgent.Text

/-! ## Variables by name -/

namespace Vars

variable {vars : Vars} {name : String}

theorem get?_eq_none (absent : name ∉ vars.map (·.1)) : vars.get? name = none := by
  rw [get?, Option.map_eq_none_iff, List.find?_eq_none]
  intro p mem named
  exact absent (List.mem_map.mpr ⟨p, mem, of_decide_eq_true named⟩)

theorem get?_of_mem (distinct : (vars.map (·.1)).Nodup) {p : String × String} (mem : p ∈ vars) :
    vars.get? p.1 = some p.2 := by
  induction vars with
  | nil => cases mem
  | cons q rest ih =>
    obtain ⟨new, distinct⟩ := List.nodup_cons.mp distinct
    rcases List.mem_cons.mp mem with rfl | mem
    · simp [get?]
    · have other : q.1 ≠ p.1 := fun same => new (List.mem_map.mpr ⟨p, mem, same.symm⟩)
      have rest := ih distinct mem
      rw [get?] at rest ⊢
      rwa [List.find?_cons_of_neg (by simpa using other)]

theorem find?_reverse (distinct : (vars.map (·.1)).Nodup) (name : String) :
    vars.reverse.find? (·.1 = name) = vars.find? (·.1 = name) := by
  induction vars with
  | nil => rfl
  | cons p rest ih =>
    obtain ⟨new, distinct⟩ := List.nodup_cons.mp distinct
    rw [List.reverse_cons, List.find?_append, ih distinct]
    by_cases same : p.1 = name
    · have absent : rest.find? (·.1 = name) = none := by
        rw [List.find?_eq_none]
        intro q mem named
        rw [decide_eq_true_eq, ← same] at named
        exact new (List.mem_map.mpr ⟨q, mem, named⟩)
      simp [absent, same]
    · simp [same]

end Vars

/-! ## Entries -/

namespace Env

/-- The variable that the entry for a required name sets. -/
def target (required : String) : String := (parts required).1

/-- What the entry for a required name sets its variable to. -/
def content (vars : Vars) (required : String) : String :=
  match splitFirst? '=' required.toList with
  | some (_, text) => String.ofList text ++ "=" ++ (vars.get? required).getD ""
  | none => (vars.get? required).getD ""

theorem toList_entry (name value : String) :
    (entry name value).toList = name.toList ++ '=' :: value.toList := by
  simp [entry]

theorem parts_entry {name : String} (value : String) (plain : '=' ∉ name.toList) :
    parts (entry name value) = (name, value) := by
  rw [parts, toList_entry, splitFirst?_append _ plain]
  simp

theorem target_of_plain {required : String} (plain : '=' ∉ required.toList) :
    target required = required := by
  rw [target, parts, splitFirst?_eq_none_iff.mpr plain]

theorem content_of_plain {required : String} (vars : Vars) (plain : '=' ∉ required.toList) :
    content vars required = (vars.get? required).getD "" := by
  rw [content, splitFirst?_eq_none_iff.mpr plain]

theorem parts_required (vars : Vars) (required : String) :
    parts (entry required ((vars.get? required).getD "")) =
      (target required, content vars required) := by
  cases split : splitFirst? '=' required.toList with
  | none =>
    have plain := splitFirst?_eq_none_iff.mp split
    rw [parts_entry _ plain, target_of_plain plain, content_of_plain vars plain]
  | some parted =>
    obtain ⟨name, text⟩ := parted
    obtain ⟨whole, plain⟩ := splitFirst?_eq_some_iff.mp split
    have named : target required = String.ofList name := by rw [target, parts, split]
    rw [named, content, split, parts, toList_entry, whole, List.append_assoc, List.cons_append,
      splitFirst?_append _ plain]
    simp [String.ext_iff]

/-! ## Later entries win -/

/-- The last of two parts of an environment that has the variable decides. -/
theorem lookup_append (env more : List String) (name : String) :
    lookup (env ++ more) name = (lookup more name).or (lookup env name) := by
  simp only [lookup, List.map_append, List.reverse_append, List.find?_append, Option.map_or]

/-- Among the entries for required names the last one with the target decides. -/
theorem lookup_required (names : List String) (vars : Vars) (name : String) :
    lookup (required names vars) name =
      (names.reverse.find? (target · = name)).map (content vars) := by
  have entries : (required names vars).map parts =
      names.map fun n => (target n, content vars n) := by
    rw [required, List.map_map]
    exact List.map_congr_left fun n _ => parts_required vars n
  rw [lookup, entries, ← List.map_reverse, List.find?_map, Option.map_map]
  rfl

/-- Entries for names without equals signs, each of them once, are read as they are written. -/
theorem lookup_assigned {vars : Vars} (plain : ∀ p ∈ vars, '=' ∉ p.1.toList)
    (distinct : (vars.map (·.1)).Nodup) (name : String) :
    lookup (vars.map fun p => entry p.1 p.2) name = vars.get? name := by
  have entries : (vars.map fun p => entry p.1 p.2).map parts = vars := by
    rw [List.map_map]
    exact (List.map_congr_left fun p mem => parts_entry p.2 (plain p mem)).trans (List.map_id _)
  rw [lookup, entries, Vars.find?_reverse distinct]
  rfl

end Env

namespace ContainerSpec

open Env

variable (run : RunSpec) (agentAddress : String) (vars : Vars)

/-- What a check reads in the environment of its container. -/
structure EnvironmentRead : Prop where
  /-- A variable is what the last required name that sets it makes of it, and what the agent
  assigned if none does. -/
  decided : ∀ name, lookup (ofRun run agentAddress vars).env name =
    ((run.requiredVars.reverse.find? (target · = name)).map (content vars)).or
      ((fixedVars run agentAddress).get? name)
  /-- The agent's variables have the values that were assigned to them unless a required name sets
  them. -/
  kept : ∀ p ∈ fixedVars run agentAddress, (∀ n ∈ run.requiredVars, target n ≠ p.1) →
    lookup (ofRun run agentAddress vars).env p.1 = some p.2
  /-- A required name that no other one sets has its configured value, or is empty. If it is
  one of the agent's, that is what is read under it. -/
  given : ∀ name ∈ run.requiredVars, '=' ∉ name.toList →
    (∀ n ∈ run.requiredVars, target n = name → n = name) →
      lookup (ofRun run agentAddress vars).env name = some ((vars.get? name).getD "")
  /-- What is read under any other name is configured for it, or was required with an equals sign
  and a text behind the name. -/
  others : ∀ name value, name ∉ (fixedVars run agentAddress).map (·.1) →
    lookup (ofRun run agentAddress vars).env name = some value →
      (name ∈ run.requiredVars ∧ value = (vars.get? name).getD "") ∨
        ∃ n ∈ run.requiredVars, '=' ∈ n.toList ∧ target n = name ∧ value = content vars n
  /-- So a job that requires none of the agent's variables, and no name with an equals sign in it,
  overrides nothing. -/
  harmless : (∀ n ∈ run.requiredVars,
      '=' ∉ n.toList ∧ n ∉ (fixedVars run agentAddress).map (·.1)) →
    (∀ p ∈ fixedVars run agentAddress,
      lookup (ofRun run agentAddress vars).env p.1 = some p.2) ∧
    ∀ name value, name ∉ (fixedVars run agentAddress).map (·.1) →
      lookup (ofRun run agentAddress vars).env name = some value →
        name ∈ run.requiredVars ∧ value = (vars.get? name).getD ""

variable {run agentAddress vars}

theorem plain_fixedVars : ∀ p ∈ fixedVars run agentAddress, '=' ∉ p.1.toList := by
  simp only [fixedVars, List.forall_mem_cons]
  decide +kernel

theorem nodup_fixedVars : ((fixedVars run agentAddress).map (·.1)).Nodup := by
  simp only [fixedVars, List.map_cons, List.map_nil]
  decide +kernel

variable (run agentAddress vars)

/-- **Who sets a variable.** -/
theorem lookup_ofRun (name : String) : lookup (ofRun run agentAddress vars).env name =
    ((run.requiredVars.reverse.find? (target · = name)).map (content vars)).or
      ((fixedVars run agentAddress).get? name) := by
  show lookup ((fixedVars run agentAddress).map (fun p => entry p.1 p.2) ++
    Env.required run.requiredVars vars) name = _
  rw [lookup_append, lookup_required, lookup_assigned plain_fixedVars nodup_fixedVars]

variable {run agentAddress vars} {name value : String}

theorem lookup_of_unset (unset : ∀ n ∈ run.requiredVars, target n ≠ name) :
    lookup (ofRun run agentAddress vars).env name = (fixedVars run agentAddress).get? name := by
  have none : run.requiredVars.reverse.find? (target · = name) = none := by
    simpa using unset
  rw [lookup_ofRun, none]
  rfl

theorem exists_of_lookup (foreign : name ∉ (fixedVars run agentAddress).map (·.1))
    (read : lookup (ofRun run agentAddress vars).env name = some value) :
    ∃ n ∈ run.requiredVars, target n = name ∧ value = content vars n := by
  rw [lookup_ofRun, Vars.get?_eq_none foreign, Option.or_none, Option.map_eq_some_iff] at read
  obtain ⟨n, found, rfl⟩ := read
  have named := List.find?_some found
  exact ⟨n, List.mem_reverse.mp (List.mem_of_find?_eq_some found), of_decide_eq_true named, rfl⟩

theorem lookup_of_required (required : name ∈ run.requiredVars) (plain : '=' ∉ name.toList)
    (only : ∀ n ∈ run.requiredVars, target n = name → n = name) :
    lookup (ofRun run agentAddress vars).env name = some ((vars.get? name).getD "") := by
  cases found : run.requiredVars.reverse.find? (target · = name) with
  | none =>
    have unset := List.find?_eq_none.mp found name (List.mem_reverse.mpr required)
    simp [target_of_plain plain] at unset
  | some n =>
    have mem := List.mem_reverse.mp (List.mem_of_find?_eq_some found)
    have named := List.find?_some found
    obtain rfl := only n mem (of_decide_eq_true named)
    rw [lookup_ofRun, found, Option.map_some, content_of_plain vars plain]
    rfl

variable (run agentAddress vars)

/-- **What a check reads in its environment.** -/
theorem environment_read : EnvironmentRead run agentAddress vars := by
  have kept : ∀ p ∈ fixedVars run agentAddress, (∀ n ∈ run.requiredVars, target n ≠ p.1) →
      lookup (ofRun run agentAddress vars).env p.1 = some p.2 := by
    intro p mem unset
    rw [lookup_of_unset unset, Vars.get?_of_mem nodup_fixedVars mem]
  constructor
  case decided => exact lookup_ofRun run agentAddress vars
  case kept => exact kept
  case given =>
    intro name required plain only
    exact lookup_of_required required plain only
  case others =>
    intro name value foreign read
    obtain ⟨n, mem, rfl, rfl⟩ := exists_of_lookup foreign read
    by_cases plain : '=' ∈ n.toList
    · exact .inr ⟨n, mem, plain, rfl, rfl⟩
    · rw [target_of_plain plain, content_of_plain vars plain]
      exact .inl ⟨mem, rfl⟩
  case harmless =>
    intro modest
    constructor
    · intro p mem
      refine kept p mem fun n required same => ?_
      obtain ⟨plain, foreign⟩ := modest n required
      rw [target_of_plain plain] at same
      exact foreign (same ▸ List.mem_map_of_mem mem)
    · intro name value foreign read
      obtain ⟨n, mem, rfl, rfl⟩ := exists_of_lookup foreign read
      have plain := (modest n mem).1
      rw [target_of_plain plain, content_of_plain vars plain]
      exact ⟨mem, rfl⟩

/-- A run whose job requires one of the agent's variables by its name, another one with an equals
sign and a text behind its name, and a third variable in that way. -/
def overridingRun : RunSpec where
  checkId := "c1"
  checktype := ⟨"nmap", "1"⟩
  image := "checks/nmap:1"
  target := "example.com"
  assetType := "Hostname"
  options := "{}"
  requiredVars := [agentAddressVar, "VULCAN_CHECK_TARGET=other.example", "TOKEN=guess"]
  timeLimit := .ofSeconds 60

/-- The address of the agent is gone, the target is another one, and a variable that was not
required has a value that was not configured. -/
theorem agent_variables_overridden :
    lookup (ofRun overridingRun "172.17.0.1:8080" []).env agentAddressVar = some "" ∧
      lookup (ofRun overridingRun "172.17.0.1:8080" []).env checkTargetVar =
        some "other.example=" ∧
      "TOKEN" ∉ overridingRun.requiredVars ∧
      lookup (ofRun overridingRun "172.17.0.1:8080" []).env "TOKEN" = some "guess=" := by
  decide +kernel

end ContainerSpec

end CheckAgent
