import Mathlib.Data.List.Perm.Basic
import CheckAgent.Proofs.Runner.Consistency

/-!
# The registry over a history

**Main result** (`registry_ledger`). Over every history, the registry holds exactly the checks that
a call has put in and not taken out again, one for each such call. A call puts its check in at most
once and takes it out itself, once, whatever became of the run; nothing else removes or replaces
it. Hence the number of running checks is the number of those calls, and of one check there is at
most one run.

What a call has done to the registry is counted on the moments of a history, and `Tally` ties the
two counts to the stage of the call.
-/

namespace CheckAgent

/-- The call that an event begins or moves on. -/
def RunnerEvent.call? : RunnerEvent → Option Nat
  | .deliver n _ | .advance n _ => some n
  | _ => none

namespace Moment

/-- Call `n` puts a check into the registry. -/
def Registers (m : Moment) (n : Nat) (c : String) : Prop :=
  m.event.call? = some n ∧ m.before.owner? c = none ∧ m.after.owner? c ≠ none

/-- Call `n` takes a check out of the registry. -/
def Unregisters (m : Moment) (n : Nat) (c : String) : Prop :=
  m.event.call? = some n ∧ m.before.owner? c ≠ none ∧ m.after.owner? c = none

instance (m : Moment) (n : Nat) (c : String) : Decidable (m.Registers n c) := by
  unfold Registers; infer_instance

instance (m : Moment) (n : Nat) (c : String) : Decidable (m.Unregisters n c) := by
  unfold Unregisters; infer_instance

end Moment

namespace History

/-- How often a call has put a check into the registry. -/
def registrations (h : History) (n : Nat) (c : String) : Nat :=
  h.moments.countP fun m => m.Registers n c

/-- How often a call has taken a check out of the registry. -/
def removals (h : History) (n : Nat) (c : String) : Nat :=
  h.moments.countP fun m => m.Unregisters n c

/-- A call holds a check: it has put it in and not taken it out again. -/
def Holds (h : History) (n : Nat) (c : String) : Prop := h.removals n c < h.registrations n c

/-- The registry of a history, told by what the calls have done. -/
structure Ledger (h : History) : Prop where
  /-- The registered checks are those that a call holds. -/
  owner_iff : ∀ {c n}, h.now.owner? c = some n ↔ h.Holds n c
  /-- A call holds no check but its own. -/
  own : ∀ {n c}, h.Holds n c → h.now.checkId? n = some c
  /-- A check is put in at most once by a call, and not taken out more often. -/
  once : ∀ n c, h.removals n c ≤ h.registrations n c ∧ h.registrations n c ≤ 1
  /-- A call that is over has taken out what it put in, however its run ended. -/
  settled : ∀ {n s}, h.now.stage? n = some s → s.isOver = true →
    ∀ c, h.removals n c = h.registrations n c
  /-- Whatever the outcome of a run, the next step of its call takes the check out. -/
  released : ∀ {n job outcome}, h.now.stage? n = some (.ended job outcome) →
    ∃ r out, h.now.step (.advance n .onward) = some (r, out) ∧ r.owner? job.checkId = none
  /-- The number of running checks is the number of calls that hold one. -/
  running : ∃ ns : List Nat, ns.Nodup ∧ (∀ n, n ∈ ns ↔ ∃ c, h.Holds n c) ∧
    h.now.running = ns.length
  /-- A run under way is the one of the call that holds its check. -/
  run : ∀ {n job}, h.now.stage? n = some (.running job) → h.Holds n job.checkId
  /-- Of a check there is one run at most. -/
  one_run : ∀ {n n' job job'}, h.now.stage? n = some (.running job) →
    h.now.stage? n' = some (.running job') → job.checkId = job'.checkId → n = n'
  /-- No event but a step of the call that holds a check takes the check from it. -/
  undisturbed : ∀ m ∈ h.moments, ∀ c n, m.before.owner? c = some n → m.event.call? ≠ some n →
    m.after.owner? c = some n
  /-- The delivery and the steps of another call leave the entry of a check and the call that holds
  it as they are. -/
  untouched : ∀ m ∈ h.moments, ∀ c g, m.before.registry.get? c = some g →
    ∀ n, m.event.call? = some n → n ≠ g.owner →
      m.after.registry.get? c = some g ∧
        m.after.calls.get? g.owner = m.before.calls.get? g.owner
  /-- Without a call that holds a check the registry is empty. -/
  empty : (∀ n c, ¬ h.Holds n c) → h.now.running = 0

end History

/-! ## Counting -/

open Runner CheckAgent.Text

/-- How often a call has put check `c` in and taken it out, by its stage. -/
inductive Tally (c : String) : Option Stage → Nat → Nat → Prop where
  | absent : Tally c none 0 0
  | early {s : Stage} (early : s.isEarly = true) : Tally c (some s) 0 0
  | held {s : Stage} {job : Job} (registered : s.registered? = some job) (same : job.checkId = c) :
      Tally c (some s) 1 0
  | away {s : Stage} {k : Nat} (late : s.isEarly = false)
      (other : ∀ job, s.registered? = some job → job.checkId ≠ c) (once : k ≤ 1) :
      Tally c (some s) k k

namespace Tally

variable {c : String} {s : Option Stage} {i j : Nat}

theorem le (h : Tally c s i j) : j ≤ i ∧ i ≤ 1 := by
  cases h <;> simp_all

theorem lt_iff (h : Tally c s i j) :
    j < i ↔ ∃ s' job, s = some s' ∧ s'.registered? = some job ∧ job.checkId = c := by
  cases h with
  | absent => simp
  | early early => simp [Stage.registered?_of_isEarly early]
  | held registered same => simp [registered, same]
  | away late other once => simpa using other

end Tally

namespace Moment

variable {m : Moment} {n : Nat} {c : String}

theorem not_registers_of_owner_eq (h : m.after.owner? c = m.before.owner? c) :
    ¬ m.Registers n c ∧ ¬ m.Unregisters n c := by
  constructor
  · rintro ⟨-, before, after⟩; exact after (h.trans before)
  · rintro ⟨-, before, after⟩; exact before (h.symm.trans after)

theorem not_registers_of_call_ne (h : m.event.call? ≠ some n) :
    ¬ m.Registers n c ∧ ¬ m.Unregisters n c :=
  ⟨fun h' => h h'.1, fun h' => h h'.1⟩

end Moment

namespace Tally

variable {m : Moment} {c : String} {i j : Nat}

theorem same (h : Tally c (m.before.stage? n) i j) (stage : m.after.stage? n = m.before.stage? n)
    (counts : ¬ m.Registers n c ∧ ¬ m.Unregisters n c) :
    Tally c (m.after.stage? n) (i + if m.Registers n c then 1 else 0)
      (j + if m.Unregisters n c then 1 else 0) := by
  rw [if_neg counts.1, if_neg counts.2, stage]
  exact h

theorem turn {n : Nat} {msg : Message} {s : Stage} {a : Answer} {t : Turned}
    (hr : m.before.Consistent) (event : m.event = .advance n a)
    (stage : m.before.stage? n = some s) (turn : Turn m.before n msg s a t)
    (owner : m.after.owner? c = (t.registry.get? c).map (·.owner)) (h : Tally c (some s) i j) :
    Tally c (some t.stage) (i + if m.Registers n c then 1 else 0)
      (j + if m.Unregisters n c then 1 else 0) := by
  have call : m.event.call? = some n := by rw [event]; rfl
  rcases turn.registry_cases with ⟨reg, registered, early⟩ | ⟨job, rfl, now, free, reg⟩ |
    ⟨job, outcome, rfl, gone, late, reg⟩ <;> rw [reg] at owner
  · -- neither count changes, and the stage is on the same side of both steps
    obtain ⟨no, no'⟩ := Moment.not_registers_of_owner_eq (n := n) owner
    rw [if_neg no, if_neg no']
    cases h with
    | early hs =>
      by_cases ht : t.stage.isEarly = true
      · exact .early ht
      · refine .away (by simpa using ht) (fun job hj => ?_) (by omega)
        rw [registered, Stage.registered?_of_isEarly hs] at hj
        cases hj
    | held hs hc => exact .held (registered.trans hs) hc
    | away late other once =>
      refine .away ?_ (fun job hj => other job (registered ▸ hj)) once
      exact Bool.eq_false_iff.mpr fun ht => Bool.eq_false_iff.mp late (early ht)
  · rw [owner?_set] at owner
    cases h with
    | held hs => cases hs
    | away late => cases late
    | early =>
      rw [now]
      by_cases hc : c = job.checkId
      · subst hc
        rw [if_pos rfl] at owner
        have yes : m.Registers n job.checkId := ⟨call, free, by simp [owner]⟩
        have no : ¬ m.Unregisters n job.checkId := fun h => h.2.1 free
        rw [if_pos yes, if_neg no]
        exact .held rfl rfl
      · rw [if_neg hc] at owner
        obtain ⟨no, no'⟩ := Moment.not_registers_of_owner_eq (n := n) owner
        rw [if_neg no, if_neg no']
        refine .away rfl (fun job' hj => ?_) (by omega)
        cases hj
        exact Ne.symm hc
  · rw [owner?_erase] at owner
    cases h with
    | early hs => cases hs
    | held hs hc =>
      cases hs
      subst hc
      have mine := hr.owner_of_registered stage rfl
      rw [if_pos rfl] at owner
      have no : ¬ m.Registers n job.checkId := fun h => h.2.2 owner
      have yes : m.Unregisters n job.checkId := ⟨call, by simp [mine], owner⟩
      rw [if_neg no, if_pos yes]
      exact .away late (by simp [gone]) (by omega)
    | away _ other once =>
      have hc : c ≠ job.checkId := fun h => other job rfl h.symm
      rw [if_neg hc] at owner
      obtain ⟨no, no'⟩ := Moment.not_registers_of_owner_eq (n := n) owner
      rw [if_neg no, if_neg no']
      exact .away late (by simp [gone]) once

theorem step (sound : m.Sound) {n : Nat} (h : Tally c (m.before.stage? n) i j) :
    Tally c (m.after.stage? n) (i + if m.Registers n c then 1 else 0)
      (j + if m.Unregisters n c then 1 else 0) := by
  obtain ⟨before, event, out, after⟩ := m
  cases step_of_eq sound.step with
  | @deliver k msg fresh stages _ owners =>
    have counts := Moment.not_registers_of_owner_eq (m := ⟨before, .deliver k msg, [], after⟩)
      (n := n) (owners c)
    by_cases hn : n = k
    · subst hn
      rw [if_neg counts.1, if_neg counts.2, stages, if_pos rfl]
      rw [fresh] at h
      cases h
      exact .early rfl
    · exact h.same (by simp [stages, hn]) counts
  | @turn k msg s a t stage _ turn stages _ owners =>
    by_cases hn : n = k
    · subst hn
      rw [stages, if_pos rfl]
      rw [stage] at h
      exact Tally.turn sound.consistent rfl stage turn (owners c) h
    · exact h.same (by simp [stages, hn])
        (Moment.not_registers_of_call_ne (by simpa [RunnerEvent.call?] using Ne.symm hn))
  | beside noCall _ stages _ owners _ =>
    exact h.same (stages n) (Moment.not_registers_of_owner_eq (owners c))

end Tally

namespace History

variable (timeLimit : Span) (abortList : Option AbortList) (events : List RunnerEvent)

theorem registrations_after (h : History) (e : RunnerEvent) (out : List Effect) (r' : Runner)
    (n : Nat) (c : String) : (h.after e out r').registrations n c =
      h.registrations n c + if Moment.Registers ⟨h.now, e, out, r'⟩ n c then 1 else 0 := by
  simp [registrations, after, List.countP_append, List.countP_cons]

theorem removals_after (h : History) (e : RunnerEvent) (out : List Effect) (r' : Runner)
    (n : Nat) (c : String) : (h.after e out r').removals n c =
      h.removals n c + if Moment.Unregisters ⟨h.now, e, out, r'⟩ n c then 1 else 0 := by
  simp [removals, after, List.countP_append, List.countP_cons]

/-- The tally of every call, after every history. -/
theorem tally (n : Nat) (c : String) :
    Tally c (((Runner.start timeLimit abortList).history events).now.stage? n)
      (((Runner.start timeLimit abortList).history events).registrations n c)
      (((Runner.start timeLimit abortList).history events).removals n c) := by
  refine induct_consistent timeLimit abortList events
    (P := fun h => Tally c (h.now.stage? n) (h.registrations n c) (h.removals n c)) .absent ?_
  intro h e r' out hr ih step
  rw [registrations_after, removals_after]
  exact Tally.step (m := ⟨h.now, e, out, r'⟩) ⟨hr, step⟩ ih

/-- The calls of a runner that stand between the two steps which register a check. -/
def holders (r : Runner) : List Nat := r.registry.entries.map (·.2.owner)

theorem mem_holders {r : Runner} {n : Nat} : n ∈ holders r ↔ ∃ c, r.owner? c = some n := by
  simp only [holders, List.mem_map, Prod.exists, owner?, Option.map_eq_some_iff]
  constructor
  · rintro ⟨c, g, hg, rfl⟩; exact ⟨c, g, (r.registry.mem_entries_iff c g).mp hg, rfl⟩
  · rintro ⟨c, g, hg, rfl⟩; exact ⟨c, g, (r.registry.mem_entries_iff c g).mpr hg, rfl⟩

theorem nodup_holders {r : Runner} (hr : r.Consistent) : (holders r).Nodup := by
  have owner : ∀ e ∈ r.registry.entries, r.owner? e.1 = some e.2.owner := fun e he => by
    simp [owner?, (r.registry.mem_entries_iff e.1 e.2).mp he]
  have keys : r.registry.entries.Pairwise fun e e' => e.1 ≠ e'.1 :=
    List.pairwise_map.mp r.registry.nodup
  refine List.pairwise_map.mpr (keys.imp_of_mem fun {e e'} he he' hne heq => hne ?_)
  exact hr.owner_inj (owner e he) ((owner e' he').trans (by rw [heq]))

end History

theorem Runner.Turn.get?_registry {r : Runner} (hr : r.Consistent) {n : Nat} {msg : Message}
    {s : Stage} {a : Answer} {t : Turned} (stage : r.stage? n = some s)
    (turn : Turn r n msg s a t) {c : String} {g : Registration} (hg : r.registry.get? c = some g)
    (hne : n ≠ g.owner) : t.registry.get? c = some g := by
  have own : r.owner? c = some g.owner := by simp [owner?, hg]
  rcases turn.registry_cases with ⟨reg, -⟩ | ⟨job, -, -, free, reg⟩ |
    ⟨job, outcome, rfl, -, -, reg⟩ <;> rw [reg]
  · exact hg
  · have hc : c ≠ job.checkId := by
      rintro rfl
      rw [free] at own
      cases own
    rw [Table.get?_set, if_neg hc]
    exact hg
  · have hc : c ≠ job.checkId := by
      rintro rfl
      have mine := hr.owner_of_registered stage rfl
      exact hne (Option.some.inj (mine.symm.trans own))
    rw [Table.get?_erase, if_neg hc]
    exact hg

namespace Moment.Sound

variable {m : Moment}

/-- Only the call that owns a check takes it out of the registry. -/
theorem undisturbed (sound : m.Sound) {c : String} {n : Nat} (own : m.before.owner? c = some n)
    (other : m.event.call? ≠ some n) : m.after.owner? c = some n := by
  obtain ⟨before, event, out, after⟩ := m
  cases step_of_eq sound.step with
  | deliver _ _ _ owners => exact (owners c).trans own
  | beside _ _ _ _ owners _ => exact (owners c).trans own
  | @turn k _ _ _ _ stage _ turn _ _ owners =>
    obtain ⟨g, hg, rfl⟩ := Option.map_eq_some_iff.mp own
    have hne : k ≠ g.owner := fun h => other (by simp [RunnerEvent.call?, h])
    rw [owners c, turn.get?_registry sound.consistent stage hg hne]
    rfl

/-- What a call does leaves the entries of other calls, and those calls, as they are. -/
theorem untouched (sound : m.Sound) {c : String} {g : Registration}
    (hg : m.before.registry.get? c = some g) {n : Nat} (call : m.event.call? = some n)
    (hne : n ≠ g.owner) : m.after.registry.get? c = some g ∧
      m.after.calls.get? g.owner = m.before.calls.get? g.owner := by
  obtain ⟨before, event, out, after⟩ := m
  obtain ⟨hr, step⟩ := sound
  dsimp only at hr step hg call ⊢
  cases happens_of_step step with
  | @turn k a f t found turn =>
    obtain rfl : k = n := Option.some.inj call
    have stage : before.stage? k = some f.stage := by simp [stage?, found]
    refine ⟨turn.get?_registry hr stage hg hne, ?_⟩
    simp [turned, Table.get?_modify, Ne.symm hne]
  | @deliver k msg =>
    obtain rfl : k = n := Option.some.inj call
    exact ⟨hg, by simp [Runner.deliver, Table.get?_set, Ne.symm hne]⟩
  | abort | lapse | stopAll | take | refuse | forward | answer => cases call

end Moment.Sound

/-- A call whose run has ended can go on, and then its check is not registered. -/
theorem Runner.released {r : Runner} {n : Nat} {job : Job} {outcome : Except RunError Bytes}
    (h : r.stage? n = some (.ended job outcome)) :
    ∃ r' out, r.step (.advance n .onward) = some (r', out) ∧ r'.owner? job.checkId = none := by
  obtain ⟨c, hc, hs⟩ := Option.map_eq_some_iff.mp h
  obtain ⟨t, turn, eq⟩ := turn_of_unregister r n c.message job outcome
  refine ⟨r.turned n t, t.effects, ?_, ?_⟩
  · simp [step, advance, hc, hs, eq]
  · rcases turn.registry_cases with ⟨-, registered, -⟩ | ⟨_, stage, -⟩ |
      ⟨job', _, stage, -, -, reg⟩
    · cases turn <;> cases registered
    · cases stage
    · cases stage
      show (t.registry.get? job.checkId).map (·.owner) = none
      rw [reg, owner?_erase, if_pos rfl]

namespace History

variable (timeLimit : Span) (abortList : Option AbortList) (events : List RunnerEvent)

/-- **The registry over a history.** -/
theorem registry_ledger : ((Runner.start timeLimit abortList).history events).Ledger := by
  have hr := consistent timeLimit abortList events
  have tally := tally timeLimit abortList events
  have sound := @moment_sound timeLimit abortList events
  generalize (Runner.start timeLimit abortList).history events = h at hr tally sound
  have owner_iff : ∀ {c n}, h.now.owner? c = some n ↔ h.Holds n c := by
    intro c n
    rw [hr.owner, Holds, (tally n c).lt_iff]
  have running : h.now.running = (holders h.now).length := by
    simp [Runner.running, Table.size, holders]
  refine {
    owner_iff
    own := fun {n c} hold => ?_
    once := fun n c => (tally n c).le
    settled := fun {n s} hs gone c => ?_
    released := Runner.released
    running := ⟨holders h.now, nodup_holders hr, fun n => ?_, running⟩
    run := fun hs => owner_iff.mp (hr.owner_of_registered hs rfl)
    one_run := fun hs hs' hc => ?_
    undisturbed := fun m hm c n => (sound hm).undisturbed
    untouched := fun m hm c g hg n => (sound hm).untouched hg
    empty := fun none => ?_ }
  · obtain ⟨s, job, hs, hj, rfl⟩ := hr.owner.mp (owner_iff.mpr hold)
    exact hr.check hs (Stage.checkId?_of_registered? hj)
  · have le := (tally n c).le.1
    refine Nat.le_antisymm le (Nat.le_of_not_lt fun hold => ?_)
    obtain ⟨s', job, hs', hj, -⟩ := (tally n c).lt_iff.mp hold
    rw [hs] at hs'
    cases hs'
    rw [Stage.registered?_of_isOver gone] at hj
    cases hj
  · rw [mem_holders]
    exact exists_congr fun c => owner_iff
  · have own := hr.owner_of_registered hs rfl
    rw [hc, hr.owner_of_registered hs' rfl] at own
    exact (Option.some.inj own).symm
  · have : holders h.now = [] := List.eq_nil_iff_forall_not_mem.mpr fun n hn => by
      obtain ⟨c, hc⟩ := mem_holders.mp hn
      exact none n c (owner_iff.mp hc)
    rw [running, this]
    rfl

end History

end CheckAgent
