import CheckAgent.Proofs.Runner.Registry
import CheckAgent.Proofs.Runner.Reports

/-!
# Callbacks and the final state

What a running check reports about itself is **taken in** if the check is registered, and forwarded
later. The registry is asked once, when the callback is taken in; on its way nothing keeps it in
order with what the calls report. So a callback may be forwarded behind the final state of its run
(`final_state_overtaken`).

**Main result** (`callbacks_bounded`). A callback is forwarded at most once, and only if it was
taken in while a run of its check was registered. What is forwarded behind the final state of a run
was taken in before that state, or while another run of the check was registered. Once no run of a
check is registered its callbacks are refused until one is, and what is still forwarded then was
taken in before the last run was taken out of the registry.

`Passes` says what an event does with a callback. The rest is read off two histories, the one up to
the moment at which a callback is forwarded and what goes on from the final state.
-/

namespace CheckAgent

open Runner CheckAgent.Text

/-- A callback that is forwarded. -/
def Effect.forwarded? : Effect → Option (Nat × CheckState)
  | .forwarded k state => some (k, state)
  | _ => none

namespace Moment

/-- A callback is taken in. -/
def TakesIn (m : Moment) (k : Nat) (state : CheckState) : Prop :=
  m.event = .report k state ∧ m.after.callbacks.get? k = some ⟨state, .recorded⟩

/-- A callback is forwarded. -/
def Forwards (m : Moment) (k : Nat) (state : CheckState) : Prop := .forwarded k state ∈ m.effects

/-- Call `n` sends the final state of its run of a check. -/
def Concludes (m : Moment) (n : Nat) (c : String) : Prop :=
  m.before.open? n = some c ∧ ∃ u ∈ m.sent, u.1 = n ∧ u.2.checkId = c ∧ u.2.status.isFinal = true

instance (m : Moment) (k : Nat) (state : CheckState) : Decidable (m.Forwards k state) :=
  decidable_of_iff ((k, state) ∈ m.effects.filterMap Effect.forwarded?) <| by
    simp only [List.mem_filterMap, Forwards]
    constructor
    · rintro ⟨effect, mem, eq⟩
      cases effect <;> cases eq
      exact mem
    · intro mem
      exact ⟨_, mem, rfl⟩

instance (m : Moment) (n : Nat) (c : String) : Decidable (m.Concludes n c) := by
  unfold Concludes
  infer_instance

end Moment

namespace History

/-- Between the final state of a run of a check and a callback for it that is forwarded, a run of
the check is registered. -/
def NoOvertaking (h : History) (c : String) : Prop :=
  ∀ before m between m' after n k state,
    h.moments = before ++ m :: (between ++ m' :: after) → m.Concludes n c →
      m'.Forwards k state → state.checkId = c → ∃ u ∈ between, ∃ o, u.Registers o c

/-- How late a callback may be forwarded. -/
structure CallbacksBounded (h : History) : Prop where
  /-- A callback is forwarded once, after it was taken in while its check was registered. -/
  taken : ∀ before m after k state, h.moments = before ++ m :: after → m.Forwards k state →
    (∃ m₀ ∈ before, m₀.TakesIn k state ∧ m₀.before.owner? state.checkId ≠ none) ∧
      ∀ m' ∈ before ++ after, ∀ state', ¬ m'.Forwards k state'
  /-- What is forwarded behind the final state of a run was taken in before that state, or while
  another run of the check was registered. -/
  late : ∀ before m between m' after n c k state,
    h.moments = before ++ m :: (between ++ m' :: after) → m.Concludes n c →
      m'.Forwards k state → state.checkId = c →
        (∃ m₀ ∈ before, m₀.TakesIn k state) ∨
          ∃ m₀ ∈ between, m₀.TakesIn k state ∧ ∃ o, o ≠ n ∧ m₀.before.owner? c = some o
  /-- While no run of a check is registered, what is forwarded was taken in before the last one was
  taken out. -/
  in_flight : ∀ before m between m' after c k state,
    h.moments = before ++ m :: (between ++ m' :: after) → m.after.owner? c = none →
      (∀ u ∈ between, ∀ o, ¬ u.Registers o c) → m'.Forwards k state → state.checkId = c →
        ∃ early m₀ mid, before = early ++ m₀ :: mid ∧ m₀.TakesIn k state ∧
          ∃ u ∈ mid ++ [m], ∃ o, u.Unregisters o c
  /-- While no run of a check is registered, a callback for it is refused and changes nothing. -/
  refused : ∀ before m between m' after c k state,
    h.moments = before ++ m :: (between ++ m' :: after) → m.after.owner? c = none →
      (∀ u ∈ between, ∀ o, ¬ u.Registers o c) → m'.event = .report k state → state.checkId = c →
        m'.before.report k state = .error (.notRunning c) ∧ m'.after = m'.before ∧ m'.effects = []

end History

/-! ## What an event does with a callback -/

namespace Runner

variable {r r' : Runner} {n k : Nat} {m : Message} {s : Stage} {a : Answer} {t : Turned}
  {e : RunnerEvent} {out : List Effect} {c : String} {state : CheckState}

/-- What an event does with callback `k`: it takes it in, forwards it, answers it, or does nothing
with it. -/
inductive Passes (r r' : Runner) (k : Nat) : RunnerEvent → List Effect → Prop where
  | beside {e : RunnerEvent} {out : List Effect}
      (same : r'.callbacks.get? k = r.callbacks.get? k)
      (silent : ∀ state, .forwarded k state ∉ out) : Passes r r' k e out
  | takes {state : CheckState} (fresh : r.callbacks.get? k = none)
      (registered : r.owner? state.checkId ≠ none)
      (now : r'.callbacks.get? k = some ⟨state, .recorded⟩) : Passes r r' k (.report k state) []
  | forwards {state : CheckState} (taken : r.callbacks.get? k = some ⟨state, .recorded⟩)
      (now : r'.callbacks.get? k = some ⟨state, .forwarded⟩) :
      Passes r r' k (.forward k) [.forwarded k state]
  | answers {state : CheckState} {ok : Bool}
      (forwarded : r.callbacks.get? k = some ⟨state, .forwarded⟩)
      (now : r'.callbacks.get? k = some ⟨state, .answered ok⟩) : Passes r r' k (.answer k ok) []

theorem report_of_free (free : r.owner? state.checkId = none) :
    r.report k state = .error (.notRunning state.checkId) := by
  unfold report
  rw [contains_eq_isSome_owner?, free]
  rfl

theorem Turn.not_forwarded (turn : Turn r n m s a t) : .forwarded k state ∉ t.effects := by
  cases turn <;> simp [quiet, saying]

/-- **What an event does with a callback.** -/
theorem passes_of_step (h : r.step e = some (r', out)) (k : Nat) : Passes r r' k e out := by
  cases happens_of_step h with
  | @take n state fresh registered =>
    by_cases same : k = n
    · subst same
      exact .takes fresh registered (by simp [Table.get?_set])
    · exact .beside (by simp [Table.get?_set, same]) fun _ => List.not_mem_nil
  | @forward n state taken =>
    by_cases same : k = n
    · subst same
      exact .forwards taken (by simp [Table.get?_set])
    · exact .beside (by simp [Table.get?_set, same]) (by simp [same])
  | @answer n state ok forwarded =>
    by_cases same : k = n
    · subst same
      exact .answers forwarded (by simp [Table.get?_set])
    · exact .beside (by simp [Table.get?_set, same]) fun _ => List.not_mem_nil
  | turn _ turn => exact .beside rfl fun _ => turn.not_forwarded
  | deliver | abort | lapse | stopAll | refuse => exact .beside rfl fun _ => List.not_mem_nil

/-- A callback is forwarded once it was taken in, and then it is not again. -/
theorem Passes.of_forwarded (passes : Passes r r' k e out) (forwards : .forwarded k state ∈ out) :
    r.callbacks.get? k = some ⟨state, .recorded⟩ ∧
      r'.callbacks.get? k = some ⟨state, .forwarded⟩ := by
  cases passes with
  | beside same silent => exact absurd forwards (silent state)
  | takes | answers => cases forwards
  | forwards taken now =>
    cases List.mem_singleton.mp forwards
    exact ⟨taken, now⟩

/-- The callback was forwarded. -/
def Passed (r : Runner) (k : Nat) : Prop :=
  ∃ state stage, r.callbacks.get? k = some ⟨state, stage⟩ ∧ stage ≠ .recorded

theorem Passed.step (passed : r.Passed k) (passes : Passes r r' k e out) : r'.Passed k := by
  obtain ⟨state, stage, at_stage, late⟩ := passed
  cases passes with
  | beside same silent => exact ⟨state, stage, same.trans at_stage, late⟩
  | takes fresh =>
    rw [at_stage] at fresh
    cases fresh
  | forwards taken now => exact ⟨_, _, now, nofun⟩
  | answers forwarded now => exact ⟨_, _, now, nofun⟩

theorem Passed.silent (passed : r.Passed k) (passes : Passes r r' k e out) :
    .forwarded k state ∉ out := by
  intro forwards
  obtain ⟨state', stage, at_stage, late⟩ := passed
  rw [(passes.of_forwarded forwards).1] at at_stage
  cases at_stage
  exact late rfl

end Runner

/-! ## Where a callback stands -/

namespace History

/-- A callback was taken in, while a run of its check was registered. -/
def Takes (h : History) (k : Nat) (state : CheckState) : Prop :=
  ∃ m ∈ h.moments, m.TakesIn k state ∧ m.before.owner? state.checkId ≠ none

/-- Where a callback stands, and what was done with it. -/
inductive Passage (h : History) (k : Nat) : Prop where
  | unknown (absent : h.now.callbacks.get? k = none)
      (silent : ∀ m ∈ h.moments, ∀ state, ¬ m.Forwards k state)
  | waiting {state : CheckState} (recorded : h.now.callbacks.get? k = some ⟨state, .recorded⟩)
      (taken : h.Takes k state) (silent : ∀ m ∈ h.moments, ∀ state, ¬ m.Forwards k state)
  | passed (passed : h.now.Passed k)

variable {h : History} {k : Nat} {e : RunnerEvent} {out : List Effect} {r' : Runner}

theorem Takes.mono {state : CheckState} (taken : h.Takes k state) :
    (h.after e out r').Takes k state := by
  obtain ⟨m, mem, takes⟩ := taken
  exact ⟨m, mem_after_of_mem mem, takes⟩

theorem silent_after (silent : ∀ m ∈ h.moments, ∀ state, ¬ m.Forwards k state)
    (now : ∀ state, .forwarded k state ∉ out) :
    ∀ m ∈ (h.after e out r').moments, ∀ state, ¬ m.Forwards k state := by
  intro m mem
  rcases mem_after.mp mem with mem | rfl
  · exact silent m mem
  · exact now

theorem Passage.step (passage : h.Passage k) (happens : h.now.step e = some (r', out)) :
    (h.after e out r').Passage k := by
  have passes := passes_of_step happens k
  cases passage with
  | passed passed => exact .passed (passed.step passes)
  | unknown absent silent =>
    cases passes with
    | beside same now => exact .unknown (same.trans absent) (silent_after silent now)
    | takes fresh registered now =>
      exact .waiting now ⟨_, last_mem_after, ⟨rfl, now⟩, registered⟩
        (silent_after silent fun _ => List.not_mem_nil)
    | forwards before | answers before =>
      rw [absent] at before
      cases before
  | waiting recorded taken silent =>
    cases passes with
    | beside same now =>
      exact .waiting (same.trans recorded) taken.mono (silent_after silent now)
    | takes fresh =>
      rw [recorded] at fresh
      cases fresh
    | forwards before now => exact .passed ⟨_, _, now, nofun⟩
    | answers before =>
      rw [recorded] at before
      cases before

end History

/-! ## Who is registered, from a moment on -/

namespace Moment.Sound

variable {m : Moment} {c : String}

theorem exists_registers (sound : m.Sound) (free : m.before.owner? c = none)
    (taken : m.after.owner? c ≠ none) : ∃ o, m.Registers o c := by
  obtain ⟨before, event, out, after⟩ := m
  cases step_of_eq sound.step with
  | deliver _ _ _ owners | beside _ _ _ _ owners _ => exact absurd ((owners c).trans free) taken
  | @turn o _ _ _ _ _ _ _ _ _ _ => exact ⟨o, rfl, free, taken⟩

theorem exists_unregisters (sound : m.Sound) (taken : m.before.owner? c ≠ none)
    (free : m.after.owner? c = none) : ∃ o, m.Unregisters o c := by
  obtain ⟨before, event, out, after⟩ := m
  cases step_of_eq sound.step with
  | deliver _ _ _ owners | beside _ _ _ _ owners _ =>
    exact absurd ((owners c).symm.trans free) taken
  | @turn o _ _ _ _ _ _ _ _ _ _ => exact ⟨o, rfl, taken, free⟩

/-- A callback that is taken in leaves the registered runs as they are, and shows nothing. -/
theorem beside_of_takesIn {k : Nat} {state : CheckState} (sound : m.Sound)
    (takes : m.TakesIn k state) :
    (∀ c, m.after.owner? c = m.before.owner? c) ∧ m.effects = [] := by
  obtain ⟨before, event, out, after⟩ := m
  obtain ⟨rfl, -⟩ := takes
  constructor
  · cases step_of_eq sound.step with
    | beside _ _ _ _ owners _ => exact owners
  · obtain ⟨-, happens⟩ := Option.ite_none_left_eq_some.mp sound.step
    exact (congrArg Prod.snd (Option.some.inj happens)).symm

/-- A call that has sent its final state has nothing more to send. -/
theorem mute_of_concludes {n : Nat} (sound : m.Sound) (concludes : m.Concludes n c) :
    m.after.Mute n := by
  obtain ⟨opened, u, sends, rfl, -, -⟩ := concludes
  have talk := talk_of_step sound.consistent (step_of_eq sound.step)
  rw [← Moment.sent] at talk
  generalize m.sent = sent at talk sends
  cases talk with
  | quiet => cases sends
  | begins closed | refuses closed =>
    cases List.mem_singleton.mp sends
    rw [opened] at closed
    cases closed
  | ends _ _ _ _ mute =>
    cases List.mem_singleton.mp sends
    exact mute

end Moment.Sound

theorem Runner.Consistent.owner_ne_of_mute {r : Runner} (hr : r.Consistent) {n : Nat} {c : String}
    (mute : r.Mute n) : r.owner? c ≠ some n := by
  intro own
  obtain ⟨s, job, hs, registered, -⟩ := hr.owner.mp own
  obtain ⟨s', hs', mute⟩ := mute
  rw [hs] at hs'
  cases hs'
  cases s <;> simp_all [Stage.registered?, Stage.isMute]

namespace History

variable {timeLimit : Span} {abortList : Option AbortList} {events : List RunnerEvent}
  {before between after : List Moment} {m m' : Moment} {c : String} {n k : Nat}

theorem free_until_registered
    (eq : ((Runner.start timeLimit abortList).history events).moments = before ++ m :: after)
    (free : m.after.owner? c = none) (unregistered : ∀ u ∈ after, ∀ o, ¬ u.Registers o c) :
    ((Runner.start timeLimit abortList).history events).now.owner? c = none := by
  refine (persists timeLimit abortList events (P := fun r => r.owner? c = none) eq free ?_).1
  intro u mem sound free
  by_contra taken
  obtain ⟨o, registers⟩ := sound.exists_registers free taken
  exact unregistered u mem o registers

theorem free_behind
    (eq : ((Runner.start timeLimit abortList).history events).moments =
      before ++ m :: (between ++ m' :: after))
    (free : m.after.owner? c = none) (unregistered : ∀ u ∈ between, ∀ o, ¬ u.Registers o c) :
    m'.before.owner? c = none := by
  have eq' : ((Runner.start timeLimit abortList).history events).moments =
      (before ++ m :: between) ++ m' :: after := eq.trans (by simp)
  obtain ⟨earlier, same, -⟩ := split eq'
  have up_to : ((Runner.start timeLimit abortList).history earlier).moments =
      before ++ m :: between := congrArg History.moments same
  have still := free_until_registered up_to free unregistered
  rw [same] at still
  exact still

theorem exists_unregisters_of_free
    (eq : ((Runner.start timeLimit abortList).history events).moments =
      before ++ m :: (between ++ m' :: after))
    (taken : m.after.owner? c ≠ none) (free : m'.after.owner? c = none) :
    ∃ u ∈ between ++ [m'], ∃ o, u.Unregisters o c := by
  by_contra still
  have eq' : ((Runner.start timeLimit abortList).history events).moments =
      (before ++ m :: between) ++ m' :: after := eq.trans (by simp)
  obtain ⟨earlier, -, same⟩ := split eq'
  have up_to : ((Runner.start timeLimit abortList).history (earlier ++ [m'.event])).moments =
      before ++ m :: (between ++ [m']) := by
    rw [same]
    simp
  have taken' := (persists timeLimit abortList _ (P := fun r => r.owner? c ≠ none) up_to taken ?_).1
  · rw [same] at taken'
    exact taken' free
  · intro u mem sound taken free
    obtain ⟨o, unregisters⟩ := sound.exists_unregisters taken free
    exact still ⟨u, mem, o, unregisters⟩

variable (timeLimit abortList events)

theorem passage (k : Nat) : ((Runner.start timeLimit abortList).history events).Passage k :=
  induct (P := fun h => h.Passage k) (.unknown rfl (List.forall_mem_nil _))
    (fun _ _ _ _ passage happens => passage.step happens) events

variable {timeLimit abortList events}

theorem takes_of_forwards {state : CheckState}
    (eq : ((Runner.start timeLimit abortList).history events).moments = before ++ m :: after)
    (forwards : m.Forwards k state) :
    (∃ m₀ ∈ before, m₀.TakesIn k state ∧ m₀.before.owner? state.checkId ≠ none) ∧
      ∀ m' ∈ before ++ after, ∀ state', ¬ m'.Forwards k state' := by
  have sound : m.Sound := moment_sound timeLimit abortList events (eq ▸ by simp)
  obtain ⟨recorded, now⟩ := (passes_of_step sound.step k).of_forwarded forwards
  obtain ⟨earlier, up_to, -⟩ := split eq
  have passage := passage timeLimit abortList earlier k
  rw [up_to] at passage
  have behind : ∀ m' ∈ after, m'.before.Passed k :=
    (persists timeLimit abortList events (P := fun r => r.Passed k) eq ⟨_, _, now, nofun⟩
      fun m' _ sound passed => passed.step (passes_of_step sound.step k)).2
  have silent_behind : ∀ m' ∈ after, ∀ state', ¬ m'.Forwards k state' := by
    intro m' mem state'
    have sound : m'.Sound := moment_sound timeLimit abortList events (eq ▸ by simp [mem])
    exact (behind m' mem).silent (passes_of_step sound.step k)
  cases passage with
  | unknown absent =>
    rw [recorded] at absent
    cases absent
  | waiting recorded' taken silent =>
    rw [recorded] at recorded'
    cases recorded'
    refine ⟨taken, fun m' mem => ?_⟩
    exact (List.mem_append.mp mem).elim (silent m') (silent_behind m')
  | passed passed =>
    obtain ⟨_, _, at_stage, late⟩ := passed
    rw [recorded] at at_stage
    cases at_stage
    exact absurd rfl late

/-- A callback that is forwarded behind a moment was taken in before or behind that moment. -/
theorem takes_before_or_behind {state : CheckState}
    (eq : ((Runner.start timeLimit abortList).history events).moments =
      before ++ m :: (between ++ m' :: after))
    (forwards : m'.Forwards k state)
    (other : m.TakesIn k state → m.before.owner? state.checkId = none) :
    (∃ m₀ ∈ before, m₀.TakesIn k state ∧ m₀.before.owner? state.checkId ≠ none) ∨
      ∃ m₀ ∈ between, m₀.TakesIn k state ∧ m₀.before.owner? state.checkId ≠ none := by
  have eq' : ((Runner.start timeLimit abortList).history events).moments =
      (before ++ m :: between) ++ m' :: after := eq.trans (by simp)
  obtain ⟨⟨m₀, mem, takes, registered⟩, -⟩ := takes_of_forwards eq' forwards
  rcases List.mem_append.mp mem with mem | mem
  · exact .inl ⟨m₀, mem, takes, registered⟩
  · rcases List.mem_cons.mp mem with rfl | mem
    · exact absurd (other takes) registered
    · exact .inr ⟨m₀, mem, takes, registered⟩

theorem owner_ne_behind_final
    (eq : ((Runner.start timeLimit abortList).history events).moments = before ++ m :: after)
    (concludes : m.Concludes n c) : ∀ m' ∈ after, m'.before.owner? c ≠ some n := by
  have sound : m.Sound := moment_sound timeLimit abortList events (eq ▸ by simp)
  have mute : ∀ m' ∈ after, m'.before.Mute n :=
    (persists timeLimit abortList events (P := fun r => r.Mute n) eq
      (sound.mute_of_concludes concludes)
      fun m' _ sound => (talk_of_step sound.consistent (step_of_eq sound.step)).mute n).2
  intro m' mem
  have sound : m'.Sound := moment_sound timeLimit abortList events (eq ▸ by simp [mem])
  exact sound.consistent.owner_ne_of_mute (mute m' mem)

variable (timeLimit abortList events)

/-- **Callbacks and the final state.** -/
theorem callbacks_bounded :
    ((Runner.start timeLimit abortList).history events).CallbacksBounded where
  taken before m after k state := takes_of_forwards
  late before m between m' after n c k state eq concludes forwards about := by
    subst about
    have sound : m.Sound := moment_sound timeLimit abortList events (eq ▸ by simp)
    have behind := owner_ne_behind_final eq concludes
    have speaks : ¬ m.TakesIn k state := by
      intro takes
      obtain ⟨-, u, sends, -⟩ := concludes
      rw [Moment.sent, (sound.beside_of_takesIn takes).2] at sends
      cases sends
    rcases takes_before_or_behind eq forwards speaks.elim with h | ⟨m₀, mem, takes, registered⟩
    · obtain ⟨m₀, mem, takes, -⟩ := h
      exact .inl ⟨m₀, mem, takes⟩
    · obtain ⟨o, owner⟩ := Option.ne_none_iff_exists'.mp registered
      refine .inr ⟨m₀, mem, takes, o, ?_, owner⟩
      rintro rfl
      exact behind m₀ (List.mem_append_left _ mem) owner
  in_flight before m between m' after c k state eq free unregistered forwards about := by
    subst about
    have sound : ∀ u ∈ before ++ [m], u.Sound := fun u mem =>
      moment_sound timeLimit abortList events (eq ▸ by simp_all; tauto)
    have late : m.TakesIn k state → m.before.owner? state.checkId = none := by
      intro takes
      rw [← ((sound m (by simp)).beside_of_takesIn takes).1]
      exact free
    rcases takes_before_or_behind eq forwards late with h | ⟨m₀, mem, takes, registered⟩
    · obtain ⟨m₀, mem, takes, registered⟩ := h
      obtain ⟨early, mid, rfl⟩ := List.append_of_mem mem
      refine ⟨early, m₀, mid, rfl, takes, ?_⟩
      have kept := ((sound m₀ (by simp)).beside_of_takesIn takes).1 state.checkId
      have eq' : ((Runner.start timeLimit abortList).history events).moments =
          early ++ m₀ :: (mid ++ m :: (between ++ m' :: after)) := eq.trans (by simp)
      exact exists_unregisters_of_free eq' (kept ▸ registered) free
    · obtain ⟨between, rest, rfl⟩ := List.append_of_mem mem
      have eq' : ((Runner.start timeLimit abortList).history events).moments =
          before ++ m :: (between ++ m₀ :: (rest ++ m' :: after)) := eq.trans (by simp)
      have still := free_behind eq' free fun u mem => unregistered u (by simp [mem])
      exact absurd still registered
  refused before m between m' after c k state eq free unregistered event about := by
    subst about
    have refuses := report_of_free (k := k) (free_behind eq free unregistered)
    have sound : m'.Sound := moment_sound timeLimit abortList events (eq ▸ by simp)
    have happens := sound.step
    rw [event] at happens
    obtain ⟨-, happens⟩ := Option.ite_none_left_eq_some.mp happens
    rw [refuses] at happens
    obtain ⟨same, silent⟩ := Prod.mk.inj (Option.some.inj happens)
    exact ⟨refuses, same.symm, silent.symm⟩

/-! ## Callbacks that come late -/

variable {timeLimit abortList events}

/-- A callback that is on its way when a run sends its final state may be forwarded behind it. -/
theorem overtakes_of_recorded {state : CheckState}
    (last : ((Runner.start timeLimit abortList).history events).moments = before ++ [m])
    (concludes : m.Concludes n state.checkId)
    (recorded : ((Runner.start timeLimit abortList).history events).now.callbacks.get? k =
      some ⟨state, .recorded⟩) :
    ¬ ((Runner.start timeLimit abortList).history (events ++ [.forward k])).NoOvertaking
      state.checkId := by
  intro ordered
  have happens := history_snoc (Runner.start timeLimit abortList) events (.forward k)
  simp only [History.next, Runner.step, recorded] at happens
  rw [happens] at ordered
  obtain ⟨u, none, -⟩ := ordered before m [] _ [] n k state
    ((congrArg (· ++ [_]) last).trans (List.append_assoc ..)) concludes
    (List.mem_singleton_self _) rfl
  cases none

/-- A callback is taken in while the run goes on, and the run ends and sends its final state before
the callback is forwarded. -/
def overtaken : List RunnerEvent := [
  .deliver 0 (.asking "m" "c"), .advance 0 .onward, .advance 0 .onward, .advance 0 (.accepted true),
  .report 0 (.plain "c" .running), .advance 0 (.outcome (.ok [])), .advance 0 .onward]

/-- A run reports a final status itself, and then that it runs. -/
def relapse : List RunnerEvent := [
  .deliver 0 (.asking "m" "c"), .advance 0 .onward, .advance 0 .onward, .advance 0 (.accepted true),
  .report 0 (.plain "c" .inconclusive), .forward 0, .report 1 (.plain "c" .running), .forward 1]

/-- What a run reports about itself may be forwarded behind its final state, and behind a final
status that it has reported before. -/
theorem final_state_overtaken :
    ¬ ((Runner.start ⟨0⟩ none).history (overtaken ++ [.forward 0])).NoOvertaking "c" ∧
      (((Runner.start ⟨0⟩ none).history relapse).moments.flatMap (·.effects)).filterMap
        Effect.forwarded? = [(0, .plain "c" .inconclusive), (1, .plain "c" .running)] := by
  have some_moment : ((Runner.start ⟨0⟩ none).history overtaken).moments ≠ [] := by decide +kernel
  have concludes : (((Runner.start ⟨0⟩ none).history overtaken).moments.getLast
      (by decide +kernel)).Concludes 0 "c" := by decide +kernel
  have recorded : ((Runner.start ⟨0⟩ none).history overtaken).now.callbacks.get? 0 =
      some ⟨.plain "c" .running, .recorded⟩ := by decide +kernel
  exact ⟨overtakes_of_recorded (List.dropLast_append_getLast some_moment).symm concludes recorded,
    by decide +kernel⟩

end History

end CheckAgent
