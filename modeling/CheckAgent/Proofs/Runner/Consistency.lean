import CheckAgent.Proofs.Runner.History

/-!
# Consistency of the runner

What a runner knows of its calls in several places agrees. **The check of a call** is the one of
its message, wherever the call stands. **The owner of a check** is the call that stands between
putting the check into the registry and taking it out, and there is no other such call. What a
check has reported about itself and the registry keeps is final, and so is every status that a
call concludes with.

`consistent` says that these hold after every history.
-/

namespace CheckAgent

namespace Stage

/-- The check that a stage is about. -/
def checkId? : Stage → Option String
  | .lookingUp job _ | .admitted job | .announcing job | .running job | .ended job _
  | .uploading job _ => some job.checkId
  | .concluding state => some state.checkId
  | .received | .done _ | .broken => none

/-- The status that a call will conclude with, once it is known. -/
def status? : Stage → Option Status
  | .uploading _ status => some status
  | .concluding state => some state.status
  | _ => none

/-- Whether the check is still to be registered. -/
def isEarly : Stage → Bool
  | .received | .lookingUp _ _ | .admitted _ => true
  | _ => false

theorem checkId?_of_registered? {s : Stage} {job : Job} (h : s.registered? = some job) :
    s.checkId? = some job.checkId := by
  cases s <;> simp_all [registered?, checkId?]

theorem registered?_of_isEarly {s : Stage} (h : s.isEarly) : s.registered? = none := by
  cases s <;> simp_all [registered?, isEarly]

theorem registered?_of_isOver {s : Stage} (h : s.isOver) : s.registered? = none := by
  cases s <;> simp_all [registered?, isOver]

end Stage

namespace Runner

/-! ## Steps of a call, by what they do to the registry -/

variable {r r' : Runner} {n : Nat} {m : Message} {s : Stage} {a : Answer} {t : Turned}

/-- A step of a call registers its check, takes it out again, or does neither. -/
theorem Turn.registry_cases (turn : Turn r n m s a t) :
    (t.registry = r.registry ∧ t.stage.registered? = s.registered? ∧
      (t.stage.isEarly → s.isEarly)) ∨
    (∃ job, s = .admitted job ∧ t.stage = .announcing job ∧ r.owner? job.checkId = none ∧
      t.registry = r.registry.set job.checkId ⟨n, none⟩) ∨
    (∃ job outcome, s = .ended job outcome ∧ t.stage.registered? = none ∧
      t.stage.isEarly = false ∧ t.registry = r.registry.erase job.checkId) := by
  cases turn with
  | register free => exact .inr (.inl ⟨_, rfl, rfl, free, rfl⟩)
  | fail => exact .inr (.inr ⟨_, _, rfl, rfl, rfl, rfl⟩)
  | close => exact .inr (.inr ⟨_, _, rfl, rfl, rfl, rfl⟩)
  | upload some => exact .inr (.inr ⟨_, _, rfl, rfl, rfl, rfl⟩)
  | _ => exact .inl ⟨rfl, rfl, by simp [quiet, saying, Stage.isEarly]⟩

theorem owner?_set (c c' : String) (g : Registration) :
    ((r.registry.set c g).get? c').map (·.owner) =
      if c' = c then some g.owner else r.owner? c' := by
  rw [Table.get?_set]; split <;> rfl

theorem owner?_erase (c c' : String) :
    ((r.registry.erase c).get? c').map (·.owner) = if c' = c then none else r.owner? c' := by
  rw [Table.get?_erase]; split <;> rfl

theorem Turn.checkId? (turn : Turn r n m s a t) {c : String} (h : t.stage.checkId? = some c) :
    s.checkId? = some c ∨ s = .received ∧ m.checkId? = some c := by
  cases turn <;> simp_all [quiet, saying, Stage.checkId?, Message.checkId?, CheckState.plain,
    Except.toOption]

/-! ## Consistency -/

/-- What a runner knows in several places agrees. -/
structure Consistent (r : Runner) : Prop where
  check : ∀ {n s c}, r.stage? n = some s → s.checkId? = some c → r.checkId? n = some c
  owner : ∀ {c n}, r.owner? c = some n ↔
    ∃ s job, r.stage? n = some s ∧ s.registered? = some job ∧ job.checkId = c
  reported : ∀ {c g status}, r.registry.get? c = some g → g.reported = some status →
    status.isFinal = true
  final : ∀ {n s status}, r.stage? n = some s → s.status? = some status → status.isFinal = true

theorem consistent_start (timeLimit : Span) (abortList : Option AbortList) :
    (start timeLimit abortList).Consistent where
  check h := by simp [start, stage?] at h
  owner := by simp [start, stage?, owner?]
  reported h := by simp [start] at h
  final h := by simp [start, stage?] at h

theorem Consistent.owner_of_registered (hr : r.Consistent) {job : Job} (h : r.stage? n = some s)
    (hs : s.registered? = some job) : r.owner? job.checkId = some n :=
  hr.owner.mpr ⟨s, job, h, hs, rfl⟩

theorem Consistent.checkId?_of_owner? (hr : r.Consistent) {c : String}
    (own : r.owner? c = some n) : r.checkId? n = some c := by
  obtain ⟨stage, job, at_n, registered, rfl⟩ := hr.owner.mp own
  exact hr.check at_n (Stage.checkId?_of_registered? registered)

theorem Consistent.owner_inj (hr : r.Consistent) {c c' : String} (h : r.owner? c = some n)
    (h' : r.owner? c' = some n) : c = c' := by
  obtain ⟨s, job, hs, hj, rfl⟩ := hr.owner.mp h
  obtain ⟨s', job', hs', hj', rfl⟩ := hr.owner.mp h'
  rw [hs] at hs'
  cases hs'
  rw [hj] at hj'
  cases hj'
  rfl

theorem check_step (hr : r.Consistent) {e : RunnerEvent} {out : List Effect} (h : Step r r' e out)
    {k : Nat} {s : Stage} {c : String} (hk : r'.stage? k = some s) (hs : s.checkId? = some c) :
    r'.checkId? k = some c := by
  cases h with
  | @deliver n m fresh stages messages _ =>
    rw [stages] at hk
    split at hk
    · cases hk; cases hs
    · next hne => rw [checkId?, messages, if_neg hne]; exact hr.check hk hs
  | turn stage message turn stages messages _ =>
    rw [stages] at hk
    rw [checkId?, messages]
    split at hk
    · next heq =>
      cases hk
      subst heq
      rcases turn.checkId? hs with hs | ⟨-, hm⟩
      · exact hr.check stage hs
      · simpa [message] using hm
    · exact hr.check hk hs
  | beside _ _ stages messages _ _ =>
    rw [stages] at hk
    rw [checkId?, messages]
    exact hr.check hk hs

theorem owner_turn (hr : r.Consistent) (stage : r.stage? n = some s) (turn : Turn r n m s a t)
    (stages : ∀ k, r'.stage? k = if k = n then some t.stage else r.stage? k)
    (owners : ∀ c, r'.owner? c = (t.registry.get? c).map (·.owner)) (c : String) (k : Nat) :
    r'.owner? c = some k ↔
      ∃ s job, r'.stage? k = some s ∧ s.registered? = some job ∧ job.checkId = c := by
  rw [owners, stages]
  rcases turn.registry_cases with ⟨reg, same, -⟩ | ⟨job, rfl, now, free, reg⟩ |
    ⟨job, outcome, rfl, gone, -, reg⟩ <;> rw [reg]
  · rw [show (r.registry.get? c).map (·.owner) = r.owner? c from rfl, hr.owner]
    by_cases hk : k = n
    · subst hk; simp [stage, same]
    · simp [hk]
  · rw [owner?_set]
    by_cases hk : k = n
    · subst hk
      -- the call itself was not registered before
      have fresh : r.owner? c ≠ some k := fun h => by
        obtain ⟨s, job', hs, hreg, -⟩ := hr.owner.mp h
        rw [stage] at hs; cases hs; cases hreg
      by_cases hc : c = job.checkId
      · simp [hc, now, Stage.registered?]
      · simp [hc, Ne.symm hc, fresh, now, Stage.registered?]
    · by_cases hc : c = job.checkId
      · subst hc
        have := hr.owner (c := job.checkId) (n := k)
        simp_all [Ne.symm hk]
      · simp only [if_neg hc, if_neg hk, hr.owner]
  · rw [owner?_erase]
    have mine := hr.owner_of_registered stage rfl
    by_cases hk : k = n
    · subst hk
      have only : c ≠ job.checkId → r.owner? c ≠ some k := fun hc h => by
        obtain ⟨s, job', hs, hreg, hc'⟩ := hr.owner.mp h
        rw [stage] at hs; cases hs; cases hreg; exact hc hc'.symm
      by_cases hc : c = job.checkId
      · simp [hc, gone]
      · simp [hc, only hc, gone]
    · by_cases hc : c = job.checkId
      · subst hc
        have := hr.owner (c := job.checkId) (n := k)
        simp_all [Ne.symm hk]
      · simp only [if_neg hc, if_neg hk, hr.owner]

theorem owner_step (hr : r.Consistent) {e : RunnerEvent} {out : List Effect} (h : Step r r' e out)
    {c : String} {k : Nat} : r'.owner? c = some k ↔
      ∃ s job, r'.stage? k = some s ∧ s.registered? = some job ∧ job.checkId = c := by
  cases h with
  | @deliver n m fresh stages messages owners =>
    rw [owners, stages, hr.owner]
    by_cases hk : k = n
    · subst hk; simp [fresh, Stage.registered?]
    · simp [hk]
  | turn stage message turn stages messages owners =>
    exact owner_turn hr stage turn stages owners c k
  | beside _ _ stages _ owners _ => rw [owners, stages, hr.owner]

theorem registry_of_report {k : Nat} {state : CheckState} {out : List Effect}
    (h : r.step (.report k state) = some (r', out)) :
    r'.registry = r.registry.modify state.checkId fun g =>
      if state.status.isFinal then { g with reported := some state.status } else g := by
  cases happens_of_step h with
  | take => rfl
  | refuse _ free =>
    have absent : r.registry.get? state.checkId = none := by simpa [owner?] using free
    exact (Table.modify_of_none absent _).symm

theorem reported_step (hr : r.Consistent) {e : RunnerEvent} {out : List Effect}
    (h : r.step e = some (r', out)) {c : String} {g : Registration} {status : Status}
    (hg : r'.registry.get? c = some g) (hs : g.reported = some status) : status.isFinal = true := by
  cases happens_of_step h with
  | @turn n a call t _ turn =>
    replace hg : t.registry.get? c = some g := hg
    rcases turn.registry_cases with ⟨reg, -⟩ | ⟨job, -, -, -, reg⟩ | ⟨job, _, -, -, -, reg⟩
    · rw [reg] at hg; exact hr.reported hg hs
    · rw [reg, Table.get?_set] at hg
      split at hg
      · cases hg; cases hs
      · exact hr.reported hg hs
    · rw [reg, Table.get?_erase] at hg
      split at hg
      · cases hg
      · exact hr.reported hg hs
  | take =>
    rw [Table.get?_modify] at hg
    split at hg
    · obtain ⟨g', hg', rfl⟩ := Option.map_eq_some_iff.mp hg
      split at hs
      · next final => cases hs; exact final
      · exact hr.reported hg' hs
    · exact hr.reported hg hs
  | deliver | abort | lapse | stopAll | refuse | forward | answer => exact hr.reported hg hs

theorem Consistent.success_final (hr : r.Consistent) (c : String) :
    (r.success c).isFinal = true := by
  unfold success
  cases hg : r.registry.get? c with
  | none => rfl
  | some g =>
    cases hs : g.reported with
    | none => simp [hs, Status.isFinal]
    | some status => simpa [hs] using hr.reported hg hs

theorem isFinal_status (e : RunError) : e.status.isFinal = true := by cases e <;> rfl

theorem Turn.status? (hr : r.Consistent) (turn : Turn r n m s a t) {status : Status}
    (h : t.stage.status? = some status) : s.status? = some status ∨ status.isFinal = true := by
  cases turn with
  | refuse => cases h; exact .inr rfl
  | fail => cases h; exact .inr (isFinal_status _)
  | close => cases h; exact .inr (hr.success_final _)
  | upload some => cases h; exact .inr (hr.success_final _)
  | link => cases h; exact .inl rfl
  | _ => cases h

theorem final_step (hr : r.Consistent) {e : RunnerEvent} {out : List Effect} (h : Step r r' e out)
    {k : Nat} {s : Stage} {status : Status} (hk : r'.stage? k = some s)
    (hs : s.status? = some status) : status.isFinal = true := by
  cases h with
  | deliver fresh stages messages _ =>
    rw [stages] at hk
    split at hk
    · cases hk; cases hs
    · exact hr.final hk hs
  | turn stage message turn stages messages _ =>
    rw [stages] at hk
    split at hk
    · cases hk
      exact (turn.status? hr hs).elim (hr.final stage) id
    · exact hr.final hk hs
  | beside _ _ stages messages _ _ =>
    rw [stages] at hk
    exact hr.final hk hs

theorem Consistent.step (hr : r.Consistent) {e : RunnerEvent} {out : List Effect}
    (h : r.step e = some (r', out)) : r'.Consistent where
  check := check_step hr (step_of_eq h)
  owner := owner_step hr (step_of_eq h)
  reported := reported_step hr h
  final := final_step hr (step_of_eq h)

end Runner

/-- A moment of the runner that agrees with itself. -/
structure Moment.Sound (m : Moment) : Prop where
  consistent : m.before.Consistent
  step : m.before.step m.event = some (m.after, m.effects)

namespace History

variable (timeLimit : Span) (abortList : Option AbortList) (events : List RunnerEvent)

/-- **Consistency.** A runner is consistent after every history. -/
theorem consistent : ((Runner.start timeLimit abortList).history events).now.Consistent :=
  induct (P := fun h => h.now.Consistent) (Runner.consistent_start timeLimit abortList)
    (fun _ _ _ _ hr step => hr.step step) events

/-- Induction over the histories of a runner that starts, which is consistent all along. -/
theorem induct_consistent {P : History → Prop} (start : P ⟨[], Runner.start timeLimit abortList⟩)
    (next : ∀ (h : History) (e : RunnerEvent) (r' : Runner) (out : List Effect),
      h.now.Consistent → P h → h.now.step e = some (r', out) → P (h.after e out r')) :
    P ((Runner.start timeLimit abortList).history events) := by
  have both : ((Runner.start timeLimit abortList).history events).now.Consistent ∧
      P ((Runner.start timeLimit abortList).history events) := by
    refine induct (P := fun h => h.now.Consistent ∧ P h)
      ⟨Runner.consistent_start timeLimit abortList, start⟩ ?_ events
    rintro h e r' out ⟨hr, ih⟩ step
    exact ⟨hr.step step, next h e r' out hr ih step⟩
  exact both.2

theorem moment_sound {m : Moment}
    (hm : m ∈ ((Runner.start timeLimit abortList).history events).moments) : m.Sound := by
  refine induct_consistent timeLimit abortList events (P := fun h => ∀ m ∈ h.moments, m.Sound)
    (by simp) (fun h e r' out hr ih step m hm => ?_) m hm
  rcases mem_after.mp hm with hm | rfl
  · exact ih m hm
  · exact ⟨hr, step⟩

/-- **What persists.** What holds after a moment and is kept by the moments behind it holds before
each of them and at the end. -/
theorem persists {P : Runner → Prop} {before after : List Moment} {m : Moment}
    (eq : ((Runner.start timeLimit abortList).history events).moments = before ++ m :: after)
    (holds : P m.after) (keeps : ∀ m' ∈ after, m'.Sound → P m'.before → P m'.after) :
    P ((Runner.start timeLimit abortList).history events).now ∧ ∀ m' ∈ after, P m'.before := by
  refine induct_consistent timeLimit abortList events
    (P := fun h => ∀ before after, h.moments = before ++ m :: after →
      (∀ m' ∈ after, m'.Sound → P m'.before → P m'.after) → P h.now ∧ ∀ m' ∈ after, P m'.before)
    (by simp) ?_ before after eq keeps
  intro h e r' out hr ih step before after eq keeps
  rcases List.eq_nil_or_concat after with rfl | ⟨rest, last, rfl⟩
  · obtain ⟨-, same⟩ := List.append_inj' eq rfl
    cases same
    exact ⟨holds, List.forall_mem_nil _⟩
  · have longer : h.moments ++ [⟨h.now, e, out, r'⟩] = (before ++ m :: rest) ++ [last] :=
      eq.trans (by simp)
    obtain ⟨earlier, same⟩ := List.append_inj' longer rfl
    cases same
    have last_mem : ⟨h.now, e, out, r'⟩ ∈ rest.concat ⟨h.now, e, out, r'⟩ := by simp
    obtain ⟨now, each⟩ := ih before rest earlier fun m' mem => keeps m' (by simp [mem])
    refine ⟨keeps _ last_mem ⟨hr, step⟩ now, fun m' mem => ?_⟩
    rcases List.mem_append.mp (List.concat_eq_append ▸ mem) with mem | mem
    · exact each m' mem
    · rw [List.mem_singleton.mp mem]
      exact now

end History

end CheckAgent
