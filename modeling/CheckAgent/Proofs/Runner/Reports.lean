import CheckAgent.Proofs.Runner.Consistency

/-!
# What the calls report about a check

**One call** reports `RUNNING` and later a final state, or `ABORTED` alone if it has found the check
aborted before it was started. Such a report is a *block*. The calls for a check are many, and what
they report together need not be block after block: the list of aborted checks is asked before the
registry, and the registry forgets a check when its run has ended, before the output is uploaded
and the final state is reported.

**Main result** (`call_reports`). A call that reports between `RUNNING` and the final state of
another call has found the check aborted, or one of the two is uploading its output
(`intrusion`). What is reported about a check is a beginning of a series of blocks exactly if no
call reports between `RUNNING` and the final state of another call (`in_blocks_iff`).

Every step of a call is quiet, or it begins, ends or refuses a run (`Talk`). The invariant is that
the reports are a series of blocks, with one more `RUNNING` behind them while a run goes on.
-/

namespace CheckAgent

open Runner CheckAgent.Text

/-! ## Reports -/

/-- A state that a call sends. -/
def Effect.sent? : Effect → Option (Nat × CheckState)
  | .sent n state => some (n, state)
  | _ => none

/-- The check of which a call has reported `RUNNING` and no final state. -/
def Stage.openFor? : Stage → Option String
  | .announcing job | .running job | .ended job _ | .uploading job _ => some job.checkId
  | _ => none

/-- Whether a call has nothing more to send. -/
def Stage.isMute : Stage → Bool
  | .concluding _ | .done _ | .broken => true
  | _ => false

/-- The check of which a call has reported `RUNNING` and no final state. -/
def Runner.open? (r : Runner) (n : Nat) : Option String := (r.stage? n).bind (·.openFor?)

def Runner.Mute (r : Runner) (n : Nat) : Prop := ∃ s, r.stage? n = some s ∧ s.isMute = true

/-- The call is uploading the output of its run. -/
def Runner.Uploads (r : Runner) (n : Nat) : Prop :=
  ∃ job status, r.stage? n = some (.uploading job status)

namespace Moment

def sent (m : Moment) : List (Nat × CheckState) := m.effects.filterMap Effect.sent?

/-- Call `n` has found its check aborted and refuses to start it. -/
def FindsAborted (m : Moment) (n : Nat) (c : String) : Prop :=
  m.event = .advance n .onward ∧
    ∃ job, m.before.stage? n = some (.lookingUp job (.found true)) ∧ job.checkId = c

/-- Call `n` sends a state between `RUNNING` and the final state of call `k`. -/
structure Intrudes (m : Moment) (n k : Nat) (state : CheckState) : Prop where
  sends : (n, state) ∈ m.sent
  other : k ≠ n
  between : m.before.open? k = some state.checkId

end Moment

/-- A block of reports about a check: those of one run, or the one of a call that has found the
check aborted. -/
inductive Block (found : Nat → Prop) (c : String) : List (Nat × CheckState) → Prop where
  | run {n : Nat} {last : CheckState} (final : last.status.isFinal = true)
      (about : last.checkId = c) :
      Block found c [(n, .plain c .running), (n, last)]
  | aborted {n : Nat} (mine : found n) : Block found c [(n, .plain c .aborted)]

namespace History

/-- What calls have sent about a check. -/
def updates (h : History) (c : String) : List (Nat × CheckState) :=
  (h.moments.flatMap Moment.sent).filter fun u => u.2.checkId = c

/-- What a call has sent about a check. -/
def updatesOf (h : History) (n : Nat) (c : String) : List (Nat × CheckState) :=
  (h.updates c).filter fun u => u.1 = n

/-- The call has found the check aborted. -/
def FoundAborted (h : History) (c : String) (n : Nat) : Prop := ∃ m ∈ h.moments, m.FindsAborted n c

/-- The reports about a check are a beginning of a series of blocks. -/
def InBlocks (h : History) (c : String) : Prop :=
  ∃ blocks : List (List (Nat × CheckState)),
    (∀ b ∈ blocks, Block (h.FoundAborted c) c b) ∧ h.updates c <+: blocks.flatten

/-- No call has reported between `RUNNING` and the final state of another call. -/
def Undisturbed (h : History) (c : String) : Prop :=
  ∀ m ∈ h.moments, ∀ n k state, state.checkId = c → ¬ m.Intrudes n k state

/-- What is true of the reports of all calls. -/
structure Reports (h : History) : Prop where
  /-- The reports of one call are a beginning of one block. -/
  one_block : ∀ n c, ∃ b, Block (h.FoundAborted c) c b ∧ h.updatesOf n c <+: b
  /-- A run has been announced and not concluded from its registration to the end of its upload. -/
  open_iff : ∀ n c, h.updatesOf n c = [(n, .plain c .running)] ↔ h.now.open? n = some c
  /-- Who reports while another run is announced and not concluded. -/
  intrusion : ∀ m ∈ h.moments, ∀ n k state, m.Intrudes n k state →
    m.FindsAborted n state.checkId ∧ state = .plain state.checkId .aborted ∨
      m.before.Uploads n ∨ m.before.Uploads k
  /-- The reports about a check come in blocks unless a call reports in between. -/
  in_blocks_iff : ∀ c, h.InBlocks c ↔ h.Undisturbed c

end History

/-! ## What an event says -/

namespace Runner

variable {r r' : Runner} {n k : Nat} {m : Message} {s : Stage} {a : Answer} {t : Turned}
  {e : RunnerEvent} {out : List Effect} {c : String}

/-- What calls say at an event, and what it makes of the calls that have more to say. -/
inductive Talk (r r' : Runner) (e : RunnerEvent) : List (Nat × CheckState) → Prop where
  | quiet (opens : ∀ k, r'.open? k = r.open? k) (mutes : ∀ k, r.Mute k → r'.Mute k) : Talk r r' e []
  | begins {n : Nat} {c : String} (closed : r.open? n = none) (speaks : ¬ r.Mute n)
      (free : r.owner? c = none) (opens : ∀ k, r'.open? k = if k = n then some c else r.open? k)
      (mutes : ∀ k, r.Mute k → r'.Mute k) : Talk r r' e [(n, .plain c .running)]
  | ends {n : Nat} {last : CheckState} (opened : r.open? n = some last.checkId)
      (final : last.status.isFinal = true) (way : r.owner? last.checkId = some n ∨ r.Uploads n)
      (opens : ∀ k, r'.open? k = if k = n then none else r.open? k) (mute : r'.Mute n)
      (mutes : ∀ k, r.Mute k → r'.Mute k) : Talk r r' e [(n, last)]
  | refuses {n : Nat} {job : Job} (closed : r.open? n = none) (speaks : ¬ r.Mute n)
      (event : e = .advance n .onward) (found : r.stage? n = some (.lookingUp job (.found true)))
      (opens : ∀ k, r'.open? k = r.open? k) (mute : r'.Mute n)
      (mutes : ∀ k, r.Mute k → r'.Mute k) : Talk r r' e [(n, .plain job.checkId .aborted)]

/-- A run that is announced and not concluded is registered, or its output is being uploaded. -/
theorem Consistent.owner_or_uploads (hr : r.Consistent) (h : r.open? k = some c) :
    r.owner? c = some k ∨ r.Uploads k := by
  obtain ⟨s, hs, opened⟩ := Option.bind_eq_some_iff.mp h
  cases s with
  | announcing job | running job | ended job _ =>
    cases opened
    exact .inl (hr.owner_of_registered hs rfl)
  | uploading job status => exact .inr ⟨job, status, hs⟩
  | _ => cases opened

theorem not_mute_of_stage (h : r.stage? n = some s) (hs : s.isMute = false) : ¬ r.Mute n := by
  rintro ⟨s', hs', mute⟩
  rw [h] at hs'
  cases hs'
  rw [hs] at mute
  cases mute

theorem Turn.isMute (turn : Turn r n m s a t) (h : s.isMute = true) : t.stage.isMute = true := by
  cases turn <;> first | rfl | cases h

theorem talk_of_turn (hr : r.Consistent) (stage : r.stage? n = some s) (turn : Turn r n m s a t)
    (stages : ∀ k, r'.stage? k = if k = n then some t.stage else r.stage? k) :
    Talk r r' (.advance n a) (t.effects.filterMap Effect.sent?) := by
  have opens (k : Nat) : r'.open? k = if k = n then t.stage.openFor? else r.open? k := by
    simp only [open?, stages]
    split <;> rfl
  have same (h : t.stage.openFor? = s.openFor?) (k : Nat) : r'.open? k = r.open? k := by
    rw [opens]
    split
    · next heq => simp [heq, h, open?, stage]
    · rfl
  have mutes (k : Nat) (h : r.Mute k) : r'.Mute k := by
    obtain ⟨s', hs', mute⟩ := h
    by_cases hk : k = n
    · subst hk
      rw [stage] at hs'
      cases hs'
      exact ⟨t.stage, by simp [stages], turn.isMute mute⟩
    · exact ⟨s', by rw [stages, if_neg hk, hs'], mute⟩
  cases turn with
  | register free =>
    exact .begins (by simp [open?, stage, Stage.openFor?]) (not_mute_of_stage stage rfl) free
      opens mutes
  | refuse =>
    exact .refuses (by simp [open?, stage, Stage.openFor?]) (not_mute_of_stage stage rfl) rfl stage
      (same rfl) ⟨_, by rw [stages, if_pos rfl], rfl⟩ mutes
  | fail =>
    exact .ends (by simp [open?, stage, Stage.openFor?, CheckState.plain]) (isFinal_status _)
      (.inl (hr.owner_of_registered stage rfl)) opens ⟨_, by rw [stages, if_pos rfl], rfl⟩ mutes
  | close =>
    exact .ends (by simp [open?, stage, Stage.openFor?, CheckState.plain]) (hr.success_final _)
      (.inl (hr.owner_of_registered stage rfl)) opens ⟨_, by rw [stages, if_pos rfl], rfl⟩ mutes
  | link =>
    exact .ends (by simp [open?, stage, Stage.openFor?, CheckState.plain]) (hr.final stage rfl)
      (.inr ⟨_, _, stage⟩) opens ⟨_, by rw [stages, if_pos rfl], rfl⟩ mutes
  | _ => exact .quiet (same rfl) mutes

/-- **What an event says.** Calls say nothing at an event, or one call begins, ends or refuses a
run. -/
theorem talk_of_step (hr : r.Consistent) (h : Step r r' e out) :
    Talk r r' e (out.filterMap Effect.sent?) := by
  cases h with
  | deliver fresh stages _ _ =>
    refine .quiet (fun k => ?_) fun k ⟨s, hs, mute⟩ => ⟨s, ?_, mute⟩
    · simp only [open?, stages]
      split
      · next heq => simp [heq, fresh, Stage.openFor?]
      · rfl
    · rw [stages, if_neg (by rintro rfl; rw [fresh] at hs; cases hs)]
      exact hs
  | turn stage _ turn stages _ _ => exact talk_of_turn hr stage turn stages
  | beside _ _ stages _ _ silent =>
    have : out.filterMap Effect.sent? = [] := by
      refine List.filterMap_eq_nil_iff.mpr fun effect mem => ?_
      cases effect with
      | sent n state => exact absurd mem (silent n state)
      | _ => rfl
    rw [this]
    exact .quiet (fun k => by simp only [open?, stages]) fun k ⟨s, hs, mute⟩ =>
      ⟨s, (stages k).trans hs, mute⟩

variable {sent : List (Nat × CheckState)}

theorem Talk.mute (talk : Talk r r' e sent) (k : Nat) : r.Mute k → r'.Mute k := by
  cases talk with
  | quiet _ mutes | begins _ _ _ _ mutes | ends _ _ _ _ _ mutes | refuses _ _ _ _ _ _ mutes =>
    exact mutes k

theorem Talk.open?_iff (talk : Talk r r' e sent) (silent : ∀ u ∈ sent, u.1 = k → u.2.checkId ≠ c) :
    r'.open? k = some c ↔ r.open? k = some c := by
  cases talk with
  | quiet opens | refuses _ _ _ _ opens => rw [opens]
  | @begins n c' closed _ _ opens =>
    rw [opens]
    split
    · next heq =>
      have other : c' ≠ c := silent _ (List.mem_singleton_self _) heq.symm
      simp [heq, closed, other]
    · rfl
  | @ends n last opened _ _ opens =>
    rw [opens]
    split
    · next heq =>
      have other : last.checkId ≠ c := silent _ (List.mem_singleton_self _) heq.symm
      simp [heq, opened, other]
    · rfl

end Runner

namespace History

variable {h : History} {e : RunnerEvent} {out : List Effect} {r' : Runner} {c : String} {n k : Nat}
  {state : CheckState}

/-! ## Reports of a history that goes on -/

theorem updates_after (h : History) (e : RunnerEvent) (out : List Effect) (r' : Runner)
    (c : String) : (h.after e out r').updates c =
      h.updates c ++ (out.filterMap Effect.sent?).filter fun u => u.2.checkId = c := by
  simp [updates, after, Moment.sent]

theorem updatesOf_after (h : History) (e : RunnerEvent) (out : List Effect) (r' : Runner)
    (n : Nat) (c : String) : (h.after e out r').updatesOf n c = h.updatesOf n c ++
      ((out.filterMap Effect.sent?).filter fun u => u.2.checkId = c).filter fun u => u.1 = n := by
  simp [updatesOf, updates_after]

theorem FoundAborted.mono (found : h.FoundAborted c n) : (h.after e out r').FoundAborted c n := by
  obtain ⟨m, hm, finds⟩ := found
  exact ⟨m, mem_after_of_mem hm, finds⟩

theorem foundAborted_after (finds : Moment.FindsAborted ⟨h.now, e, out, r'⟩ n c) :
    (h.after e out r').FoundAborted c n :=
  ⟨_, last_mem_after, finds⟩

theorem Undisturbed.before (undisturbed : (h.after e out r').Undisturbed c) : h.Undisturbed c :=
  fun m hm => undisturbed m (mem_after_of_mem hm)

end History

theorem Block.mono {found found' : Nat → Prop} {c : String} {b : List (Nat × CheckState)}
    (weaker : ∀ n, found n → found' n) (h : Block found c b) : Block found' c b := by
  cases h with
  | run final about => exact .run final about
  | aborted mine => exact .aborted (weaker _ mine)

theorem Block.after {h : History} {e : RunnerEvent} {out : List Effect} {r' : Runner} {c : String}
    {b : List (Nat × CheckState)} (block : Block (h.FoundAborted c) c b) :
    Block ((h.after e out r').FoundAborted c) c b :=
  block.mono fun _ found => found.mono

/-! ## The reports of one call -/

namespace History

variable {h : History} {c : String} {n k : Nat} {e : RunnerEvent} {r' : Runner} {out : List Effect}

/-- How far a call is with its reports about a check. -/
inductive Said (h : History) (n : Nat) (c : String) : Prop where
  | nothing (silent : h.updatesOf n c = []) (closed : h.now.open? n ≠ some c)
  | announced (said : h.updatesOf n c = [(n, .plain c .running)]) (opened : h.now.open? n = some c)
  | concluded {last : CheckState} (said : h.updatesOf n c = [(n, .plain c .running), (n, last)])
      (final : last.status.isFinal = true) (about : last.checkId = c) (mute : h.now.Mute n)
  | refused (said : h.updatesOf n c = [(n, .plain c .aborted)]) (found : h.FoundAborted c n)
      (mute : h.now.Mute n)

theorem closed_of_mute {r : Runner} (h : r.Mute n) : r.open? n = none := by
  obtain ⟨s, hs, mute⟩ := h
  rw [Runner.open?, hs]
  cases s <;> first | rfl | cases mute

theorem Said.silent (said : h.Said n c) (closed : h.now.open? n = none)
    (speaks : ¬ h.now.Mute n) : h.updatesOf n c = [] := by
  cases said with
  | nothing silent _ => exact silent
  | announced _ opened => rw [closed] at opened; cases opened
  | concluded _ _ _ mute => exact absurd mute speaks
  | refused _ _ mute => exact absurd mute speaks

theorem Said.keep (said : h.Said n c)
    (same : (h.after e out r').updatesOf n c = h.updatesOf n c)
    (opens : r'.open? n = some c ↔ h.now.open? n = some c) (mutes : h.now.Mute n → r'.Mute n) :
    (h.after e out r').Said n c := by
  cases said with
  | nothing silent closed => exact .nothing (same.trans silent) fun o => closed (opens.mp o)
  | announced said opened => exact .announced (same.trans said) (opens.mpr opened)
  | concluded said final about mute =>
    exact .concluded (same.trans said) final about (mutes mute)
  | refused said found mute => exact .refused (same.trans said) found.mono (mutes mute)

theorem of_not_silent {u : Nat × CheckState} (loud : ¬ ∀ v ∈ [u], v.1 = n → v.2.checkId ≠ c) :
    u.1 = n ∧ u.2.checkId = c := by
  simpa using loud

theorem Said.step (hr : h.now.Consistent) (said : h.Said n c)
    (step : h.now.step e = some (r', out)) : (h.after e out r').Said n c := by
  have next := updatesOf_after h e out r' n c
  have talk := talk_of_step hr (step_of_eq step)
  generalize out.filterMap Effect.sent? = sent at next talk
  by_cases silent : ∀ u ∈ sent, u.1 = n → u.2.checkId ≠ c
  · refine said.keep ?_ (talk.open?_iff silent) (talk.mute n)
    have none : (sent.filter fun u => u.2.checkId = c).filter (fun u => u.1 = n) = [] := by
      simp only [List.filter_filter, List.filter_eq_nil_iff, Bool.and_eq_true, decide_eq_true_eq]
      exact fun u mem ⟨heq, about⟩ => silent u mem heq about
    rw [next, none, List.append_nil]
  cases talk with
  | quiet => exact absurd nofun silent
  | @begins n' c' closed speaks free opens mutes =>
    obtain ⟨rfl, rfl⟩ : n' = n ∧ c' = c := of_not_silent silent
    refine .announced ?_ (by simp [opens])
    rw [next, said.silent closed speaks]
    simp [CheckState.plain]
  | @ends n' last opened final way opens mute mutes =>
    obtain ⟨rfl, rfl⟩ : n' = n ∧ last.checkId = c := of_not_silent silent
    have first : h.updatesOf n' last.checkId = [(n', .plain last.checkId .running)] := by
      cases said with
      | nothing _ closed => exact absurd opened closed
      | announced said _ => exact said
      | concluded _ _ _ mute => rw [closed_of_mute mute] at opened; cases opened
      | refused _ _ mute => rw [closed_of_mute mute] at opened; cases opened
    refine .concluded (?_ : _ = [_, (n', last)]) final rfl mute
    rw [next, first]
    simp
  | @refuses n' job closed speaks event found opens mute mutes =>
    obtain ⟨rfl, rfl⟩ : n' = n ∧ job.checkId = c := of_not_silent silent
    refine .refused ?_ (foundAborted_after ⟨event, job, found, rfl⟩) mute
    rw [next, said.silent closed speaks]
    simp [CheckState.plain]

theorem Said.one_block (said : h.Said n c) :
    ∃ b, Block (h.FoundAborted c) c b ∧ h.updatesOf n c <+: b := by
  have run : Block (h.FoundAborted c) c [(n, .plain c .running), (n, .plain c .finished)] :=
    .run rfl rfl
  cases said with
  | nothing silent _ => exact ⟨_, run, silent ▸ List.nil_prefix⟩
  | announced said _ => exact ⟨_, run, said ▸ ⟨[(n, .plain c .finished)], rfl⟩⟩
  | concluded said final about _ =>
    refine ⟨_, .run (n := n) final about, ?_⟩
    exact said ▸ List.prefix_rfl
  | refused said found _ => exact ⟨_, .aborted found, said ▸ List.prefix_rfl⟩

theorem Said.open_iff (said : h.Said n c) :
    h.updatesOf n c = [(n, .plain c .running)] ↔ h.now.open? n = some c := by
  cases said with
  | nothing silent closed => simp [silent, closed]
  | announced said opened => simp [said, opened]
  | concluded said _ _ mute => simp [said, closed_of_mute mute]
  | refused said _ mute => simp [said, closed_of_mute mute, CheckState.plain]

/-! ## The reports of all calls -/

/-- **Who intrudes.** A call that reports while another run is announced and not concluded has found
the check aborted, or one of the two is uploading its output. -/
theorem intrusion_of_sound {m : Moment} (sound : m.Sound) {state : CheckState}
    (intrudes : m.Intrudes n k state) :
    m.FindsAborted n state.checkId ∧ state = .plain state.checkId .aborted ∨
      m.before.Uploads n ∨ m.before.Uploads k := by
  obtain ⟨sends, other, between⟩ := intrudes
  have talk := talk_of_step sound.consistent (step_of_eq sound.step)
  have owner := sound.consistent.owner_or_uploads between
  simp only [Moment.sent] at sends
  cases hsent : m.effects.filterMap Effect.sent? <;> rw [hsent] at sends talk
  · cases sends
  cases talk with
  | begins closed speaks free opens mutes =>
    obtain ⟨rfl, rfl⟩ := Prod.mk.inj (List.mem_singleton.mp sends)
    -- nobody owns the check when it is registered
    exact .inr (.inr (owner.resolve_left fun mine => by
      rw [CheckState.plain] at mine; rw [free] at mine; cases mine))
  | ends opened final way opens mute mutes =>
    obtain ⟨rfl, rfl⟩ := Prod.mk.inj (List.mem_singleton.mp sends)
    rcases way with mine | uploads
    · refine .inr (.inr (owner.resolve_left fun its => other ?_))
      exact Option.some.inj (its.symm.trans mine)
    · exact .inr (.inl uploads)
  | @refuses _ job closed speaks event found opens mute mutes =>
    obtain ⟨rfl, rfl⟩ := Prod.mk.inj (List.mem_singleton.mp sends)
    exact .inl ⟨⟨event, job, found, rfl⟩, rfl⟩

/-- The reports are a series of blocks, with one more `RUNNING` behind them while a run of the check
goes on. -/
inductive Serial (h : History) (c : String) : Prop where
  | apart (blocks : List (List (Nat × CheckState)))
      (each : ∀ b ∈ blocks, Block (h.FoundAborted c) c b) (said : h.updates c = blocks.flatten)
      (closed : ∀ k, h.now.open? k ≠ some c)
  | within (blocks : List (List (Nat × CheckState))) (k : Nat)
      (each : ∀ b ∈ blocks, Block (h.FoundAborted c) c b)
      (said : h.updates c = blocks.flatten ++ [(k, .plain c .running)])
      (opened : ∀ j, h.now.open? j = some c ↔ j = k)

theorem Serial.in_blocks (serial : h.Serial c) : h.InBlocks c := by
  cases serial with
  | apart blocks each said _ => exact ⟨blocks, each, said ▸ List.prefix_rfl⟩
  | within blocks k each said _ =>
    refine ⟨blocks ++ [[(k, .plain c .running), (k, .plain c .finished)]], fun b hb => ?_, ?_⟩
    · rcases List.mem_append.mp hb with hb | hb
      · exact each b hb
      · obtain rfl := List.mem_singleton.mp hb
        exact .run rfl rfl
    · rw [said]
      exact ⟨[(k, .plain c .finished)], by simp⟩

/-- An event at which nothing is said of a check, and which opens and closes no run of it, leaves
the reports a series of blocks. -/
theorem Serial.keep (serial : h.Serial c) (same : (h.after e out r').updates c = h.updates c)
    (opens : ∀ k, r'.open? k = some c ↔ h.now.open? k = some c) : (h.after e out r').Serial c := by
  cases serial with
  | apart blocks each said closed =>
    exact .apart blocks (fun b hb => (each b hb).after) (same.trans said)
      fun k o => closed k ((opens k).mp o)
  | within blocks k each said opened =>
    exact .within blocks k (fun b hb => (each b hb).after) (same.trans said)
      fun j => (opens j).trans (opened j)

/-- The reports behind a series of blocks may be one more block. -/
theorem each_after {blocks : List (List (Nat × CheckState))}
    (each : ∀ b ∈ blocks, Block (h.FoundAborted c) c b) {b : List (Nat × CheckState)}
    (last : Block ((h.after e out r').FoundAborted c) c b) :
    ∀ b' ∈ blocks ++ [b], Block ((h.after e out r').FoundAborted c) c b' := by
  intro b' hb
  rcases List.mem_append.mp hb with hb | hb
  · exact (each b' hb).after
  · obtain rfl := List.mem_singleton.mp hb
    exact last

theorem Serial.step (hr : h.now.Consistent) (serial : h.Serial c)
    (step : h.now.step e = some (r', out))
    (undisturbed : ∀ n k state, state.checkId = c →
      ¬ Moment.Intrudes ⟨h.now, e, out, r'⟩ n k state) : (h.after e out r').Serial c := by
  have next := updates_after h e out r' c
  have talk := talk_of_step hr (step_of_eq step)
  have alone {n k : Nat} {state : CheckState} (sends : (n, state) ∈ out.filterMap Effect.sent?)
      (about : state.checkId = c) (opened : h.now.open? k = some c) : k = n := by
    by_contra other
    exact undisturbed n k state about ⟨sends, other, about ▸ opened⟩
  generalize out.filterMap Effect.sent? = sent at next talk alone
  by_cases silent : ∀ u ∈ sent, u.2.checkId ≠ c
  · refine serial.keep ?_ fun k => talk.open?_iff fun u mem _ => silent u mem
    have none : (sent.filter fun u => u.2.checkId = c) = [] := by
      simpa [List.filter_eq_nil_iff] using silent
    rw [next, none, List.append_nil]
  cases talk with
  | quiet => exact absurd nofun silent
  | @begins n c' closed speaks free opens mutes =>
    obtain rfl : c' = c := by simpa [CheckState.plain] using silent
    cases serial with
    | apart blocks each said none =>
      refine .within blocks n (fun b hb => (each b hb).after) ?_ fun j => ?_
      · rw [next, said]
        simp [CheckState.plain]
      · rw [now_after, opens]
        split
        · next heq => simp [heq]
        · next hne => simp [none j, hne]
    | within blocks k each said opened =>
      obtain rfl := alone (List.mem_singleton_self _) rfl ((opened k).mpr rfl)
      rw [(opened k).mpr rfl] at closed
      cases closed
  | @ends n last opened final way opens mute mutes =>
    obtain rfl : last.checkId = c := by simpa using silent
    cases serial with
    | apart blocks each said none => exact absurd opened (none n)
    | within blocks k each said only =>
      obtain rfl := (only n).mp opened
      refine .apart (blocks ++ [[(n, .plain last.checkId .running), (n, last)]])
        (each_after each (.run final rfl)) ?_ fun j => ?_
      · rw [next, said]
        simp
      · rw [now_after, opens]
        split
        · simp
        · next hne => exact fun o => hne ((only j).mp o)
  | @refuses n job closed speaks event found opens mute mutes =>
    obtain rfl : job.checkId = c := by simpa [CheckState.plain] using silent
    cases serial with
    | apart blocks each said none =>
      refine .apart (blocks ++ [[(n, .plain job.checkId .aborted)]])
        (each_after each (.aborted (foundAborted_after ⟨event, job, found, rfl⟩))) ?_ fun j => ?_
      · rw [next, said]
        simp [CheckState.plain]
      · rw [now_after, opens]
        exact none j
    | within blocks k each said opened =>
      obtain rfl := alone (List.mem_singleton_self _) rfl ((opened k).mpr rfl)
      rw [(opened k).mpr rfl] at closed
      cases closed

/-- Behind `RUNNING` a series of blocks goes on with a report of the same call. -/
theorem follows_running {found : Nat → Prop} {blocks : List (List (Nat × CheckState))}
    (each : ∀ b ∈ blocks, Block found c b) (said : List (Nat × CheckState)) {state : CheckState}
    (h : said ++ [(k, .plain c .running), (n, state)] <+: blocks.flatten) : k = n := by
  induction blocks generalizing said with
  | nil => simp at h
  | cons b blocks ih =>
    specialize @ih fun b hb => each b (List.mem_cons_of_mem _ hb)
    cases each b (List.mem_cons_self ..) with
    | run final about =>
      match said with
      | [] => simp_all [List.cons_prefix_cons]
      | [u] =>
        simp only [List.flatten_cons, List.cons_append, List.nil_append,
          List.cons_prefix_cons, Prod.mk.injEq] at h
        -- a final state is not `RUNNING`
        obtain ⟨-, ⟨-, rfl⟩, -⟩ := h
        cases final
      | u :: v :: said =>
        simp only [List.flatten_cons, List.cons_append, List.cons_prefix_cons] at h
        exact ih _ h.2.2
    | aborted mine =>
      match said with
      | [] => simp [List.cons_prefix_cons, CheckState.plain] at h
      | u :: said =>
        simp only [List.flatten_cons, List.cons_append, List.cons_prefix_cons] at h
        exact ih _ h.2

theorem sent_eq {m : Moment} (sound : m.Sound) {state : CheckState} (sends : (n, state) ∈ m.sent) :
    m.sent = [(n, state)] := by
  have talk := talk_of_step sound.consistent (step_of_eq sound.step)
  rw [← Moment.sent] at talk
  generalize m.sent = sent at talk sends
  cases talk with
  | quiet => cases sends
  | _ => rw [List.mem_singleton.mp sends]

/-- A call that reports behind the `RUNNING` of another call breaks the series of blocks. -/
theorem Serial.not_intrudes (serial : h.Serial c) (sound : Moment.Sound ⟨h.now, e, out, r'⟩)
    {found : Nat → Prop} {blocks : List (List (Nat × CheckState))}
    (each : ∀ b ∈ blocks, Block found c b)
    (inBlocks : (h.after e out r').updates c <+: blocks.flatten)
    {state : CheckState} (about : state.checkId = c) :
    ¬ Moment.Intrudes ⟨h.now, e, out, r'⟩ n k state := by
  rintro ⟨sends, other, between⟩
  rw [about] at between
  cases serial with
  | apart blocks each said none => exact none k between
  | within blocks k' each' said opened =>
    obtain rfl := (opened k).mp between
    have alone : out.filterMap Effect.sent? = [(n, state)] := sent_eq sound sends
    rw [updates_after, said, alone] at inBlocks
    simp only [about, decide_true, List.filter_cons_of_pos, List.filter_nil, List.append_assoc,
      List.cons_append, List.nil_append] at inBlocks
    exact other (follows_running each _ inBlocks)

/-- The reports about a check are a series of blocks if and only if nobody disturbs it. -/
structure Orderly (h : History) (c : String) : Prop where
  serial : h.Undisturbed c → h.Serial c
  undisturbed : ∀ {found : Nat → Prop} {blocks : List (List (Nat × CheckState))},
    (∀ b ∈ blocks, Block found c b) → h.updates c <+: blocks.flatten → h.Undisturbed c

theorem Orderly.step (hr : h.now.Consistent) (orderly : h.Orderly c)
    (step : h.now.step e = some (r', out)) : (h.after e out r').Orderly c where
  serial undisturbed :=
    (orderly.serial undisturbed.before).step hr step (undisturbed _ last_mem_after)
  undisturbed {found blocks} each inBlocks := by
    have before : h.updates c <+: blocks.flatten := by
      rw [updates_after] at inBlocks
      exact (List.prefix_append _ _).trans inBlocks
    have undisturbed := orderly.undisturbed each before
    intro m hm n k state about
    rcases mem_after.mp hm with hm | rfl
    · exact undisturbed m hm n k state about
    · exact (orderly.serial undisturbed).not_intrudes ⟨hr, step⟩ each inBlocks about

section

variable (timeLimit : Span) (abortList : Option AbortList) (events : List RunnerEvent)

theorem said (n : Nat) (c : String) :
    ((Runner.start timeLimit abortList).history events).Said n c :=
  induct_consistent timeLimit abortList events (P := fun h => h.Said n c) (.nothing rfl nofun)
    fun _ _ _ _ hr said step => said.step hr step

theorem orderly (c : String) :
    ((Runner.start timeLimit abortList).history events).Orderly c := by
  refine induct_consistent timeLimit abortList events (P := fun h => h.Orderly c)
    ⟨fun _ => .apart [] (by simp) rfl nofun, fun _ _ => by simp [Undisturbed]⟩ ?_
  exact fun _ _ _ _ hr orderly step => orderly.step hr step

/-- **What the calls report.** Every call reports one block at most, and the blocks follow one
another unless a call reports in between. It does so only if it has found the check aborted, or
while it or the other one uploads its output. -/
theorem call_reports : ((Runner.start timeLimit abortList).history events).Reports where
  one_block n c := (said timeLimit abortList events n c).one_block
  open_iff n c := (said timeLimit abortList events n c).open_iff
  intrusion _ hm _ _ _ intrudes :=
    intrusion_of_sound (moment_sound timeLimit abortList events hm) intrudes
  in_blocks_iff c :=
    ⟨fun ⟨_, each, inBlocks⟩ => (orderly timeLimit abortList events c).undisturbed each inBlocks,
      fun undisturbed => ((orderly timeLimit abortList events c).serial undisturbed).in_blocks⟩

end

/-! ## Reports in between -/

/-- The check is put on the list of aborted checks while its run goes on, and its message comes
again. -/
def abortedMeanwhile : List RunnerEvent :=
  [.deliver 0 (.asking "m" "c"), .advance 0 .onward, .advance 0 .onward,
    .advance 0 (.exchange (.answered 200 (Utf8.encode "[]".toList)) .plain),
    .advance 0 .onward, .advance 0 .onward, .advance 0 .onward, .advance 0 (.accepted true),
    .deliver 1 (.asking "m" "c"), .advance 1 .onward, .advance 1 .onward,
    .advance 1 (.exchange (.answered 200 (Utf8.encode "[\"c\"]".toList)) .plain),
    .advance 1 .onward, .advance 1 .onward]

/-- The message comes again while the output of its run is being uploaded. -/
def uploadedMeanwhile : List RunnerEvent :=
  [.deliver 0 (.asking "m" "c"), .advance 0 .onward, .advance 0 .onward,
    .advance 0 (.accepted true), .advance 0 (.outcome (.ok [111])), .advance 0 .onward,
    .deliver 1 (.asking "m" "c"), .advance 1 .onward, .advance 1 .onward]

/-- A list of aborted checks that has not been fetched. -/
def freshList : AbortList := ⟨.doubling 0 ⟨0⟩, []⟩

theorem updates_abortedMeanwhile :
    ((Runner.start ⟨0⟩ (some freshList)).history abortedMeanwhile).updates "c" =
      [(0, .plain "c" .running), (1, .plain "c" .aborted)] := by
  decide +kernel

theorem updates_uploadedMeanwhile :
    ((Runner.start ⟨0⟩ none).history uploadedMeanwhile).updates "c" =
      [(0, .plain "c" .running), (1, .plain "c" .running)] := by
  decide +kernel

/-- A call may report between `RUNNING` and the final state of another call. -/
theorem reports_in_between :
    ¬ ((Runner.start ⟨0⟩ (some freshList)).history abortedMeanwhile).InBlocks "c" ∧
    ¬ ((Runner.start ⟨0⟩ none).history uploadedMeanwhile).InBlocks "c" := by
  constructor
  · rintro ⟨blocks, each, inBlocks⟩
    rw [updates_abortedMeanwhile] at inBlocks
    cases follows_running each [] inBlocks
  · rintro ⟨blocks, each, inBlocks⟩
    rw [updates_uploadedMeanwhile] at inBlocks
    cases follows_running each [] inBlocks

end History

end CheckAgent
