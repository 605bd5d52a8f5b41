import CheckAgent.Proofs.Runner.Consistency

/-!
# What becomes of a check whose messages are deleted

A message is deleted when the final state of its check has been accepted, when it holds no job, or
as a **duplicate**, because a run of its check is registered. A duplicate is deleted on the strength
of a report that is still to come. If that report is refused, the message of the run is kept, and
the check is taken up again when that message comes again.

**Main result** (`accepts_or_undercut`). Suppose that a check was delivered, that no call for it is
under way, and that all its messages have been deleted. Then a final state of the check has been
accepted, unless the check was **undercut**: one of its messages was dropped as a duplicate before
the end of a run made for this very message, and the report of that run was refused. This happens
(`redelivered_message_lost`) when a message comes again while its own run goes on.

The proof follows the latest run of the check: everything that was dropped so far was dropped
before that run ended.
-/

namespace CheckAgent

open Runner CheckAgent.Text

/-- Whether the run of a call, if it made one, has ended. -/
def Stage.isPast (s : Stage) : Bool := !s.isEarly && s.registered?.isNone

/-- What becomes of the message of a call that is over. -/
def Stage.disposition? : Stage → Option Disposition
  | .done disposition => some disposition
  | _ => none

namespace Moment

/-- The state that is accepted by the state service at a moment. -/
def accepted? (m : Moment) : Option CheckState :=
  match m.event with
  | .advance n (.accepted true) =>
    match m.before.stage? n with
    | some (.announcing job) => some (.plain job.checkId .running)
    | some (.concluding state) => some state
    | _ => none
  | .answer n true => (m.before.callbacks.get? n).map (·.state)
  | _ => none

/-- Call `n` deletes its message as a duplicate, since its check runs already. -/
def Drops (m : Moment) (n : Nat) (c : String) : Prop :=
  ∃ job, m.before.stage? n = some (.admitted job) ∧ job.checkId = c ∧
    m.after.stage? n = some (.done .delete)

/-- The last report of call `n` is refused. -/
def Refuses (m : Moment) (n : Nat) : Prop :=
  m.event = .advance n (.accepted false) ∧ ∃ state, m.before.stage? n = some (.concluding state)

end Moment

namespace History

/-- The calls for a check. -/
def callsFor (h : History) (c : String) : List Call :=
  (h.now.calls.entries.map (·.2)).filter fun call => call.message.checkId? = some c

/-- The check was delivered. -/
def Delivered (h : History) (c : String) : Prop := h.callsFor c ≠ []

/-- No call for the check is under way. -/
def AtRest (h : History) (c : String) : Prop := ∀ call ∈ h.callsFor c, call.stage.isOver = true

/-- Every message that asked for the check has been deleted by some call. -/
def AllDeleted (h : History) (c : String) : Prop :=
  ∀ call ∈ h.callsFor c, ∃ e ∈ h.now.calls.entries,
    e.2.message.id = call.message.id ∧ e.2.stage.disposition? = some .delete

/-- A final state of the check has been accepted. -/
def Accepts (h : History) (c : String) : Prop :=
  ∃ m ∈ h.moments, ∃ state ∈ m.accepted?, state.checkId = c ∧ state.status.isFinal = true

/-- Call `x` deleted the message of call `o` without a report: the message came to `x` with another
body, or `x` dropped it as a duplicate before the end of the run that `o` made, and the report of
that run was refused. -/
def Undercut (h : History) (c : String) : Prop :=
  ∃ o x mo mx, h.now.message? o = some mo ∧ mo.checkId? = some c ∧ h.now.message? x = some mx ∧
    mx.id = mo.id ∧ h.now.stage? x = some (.done .delete) ∧
    (mx.checkId? ≠ some c ∨
      (∃ m ∈ h.moments, m.Refuses o) ∧
        ∃ m ∈ h.moments, m.Drops x c ∧ ∀ s, m.before.stage? o = some s → s.isPast = false)

end History

/-! ## The end of a run is final -/

namespace Runner

variable {r r' : Runner} {n : Nat} {m : Message} {s : Stage} {a : Answer} {t : Turned}

theorem Turn.isPast (turn : Turn r n m s a t) (h : s.isPast = true) : t.stage.isPast = true := by
  cases turn <;> first | rfl | cases h

theorem isPast_step {e : RunnerEvent} {out : List Effect} (h : Step r r' e out) {k : Nat}
    (hs : r.stage? k = some s) (past : s.isPast = true) :
    ∃ s', r'.stage? k = some s' ∧ s'.isPast = true := by
  cases h with
  | deliver fresh stages _ _ =>
    rw [stages]
    split
    · next heq => rw [heq, fresh] at hs; cases hs
    · exact ⟨s, hs, past⟩
  | turn stage _ turn stages _ _ =>
    rw [stages]
    split
    · next heq =>
      rw [heq, stage] at hs
      cases hs
      exact ⟨_, rfl, turn.isPast past⟩
    · exact ⟨s, hs, past⟩
  | beside _ _ stages _ _ _ => exact ⟨s, (stages k).trans hs, past⟩

theorem message_step {e : RunnerEvent} {out : List Effect} (h : Step r r' e out) {k : Nat}
    (hm : r.message? k = some m) : r'.message? k = some m := by
  cases h with
  | deliver fresh _ messages _ =>
    rw [messages]
    split
    · next heq => subst heq; simp [stage?, message?] at fresh hm; simp [fresh] at hm
    · exact hm
  | turn _ _ _ _ messages _ => exact (messages k).trans hm
  | beside _ _ _ messages _ _ => exact (messages k).trans hm

theorem checkId?_step {e : RunnerEvent} {out : List Effect} (h : Step r r' e out) {k : Nat}
    {c : String} (hc : r.checkId? k = some c) : r'.checkId? k = some c := by
  obtain ⟨m, hm, hc⟩ := Option.bind_eq_some_iff.mp hc
  rw [checkId?, message_step h hm]
  exact hc

/-- A call deletes its message because it holds no job, as a duplicate, or after its report. -/
theorem Turn.deleted (turn : Turn r n m s a t) (h : t.stage = .done .delete) :
    m.checkId? = none ∨ (∃ job, s = .admitted job) ∨
      ∃ state, s = .concluding state ∧ a = .accepted true := by
  cases turn with
  | discard unreadable => exact .inl (by simp [Message.checkId?, unreadable, Except.toOption])
  | drop => exact .inr (.inl ⟨_, rfl⟩)
  | @settle state ok =>
    cases ok with
    | true => exact .inr (.inr ⟨state, rfl, rfl⟩)
    | false => cases h
  | _ => cases h

/-- A call that runs its check or reports on it goes on to do so until its last report has been
answered. -/
theorem Turn.reporting (turn : Turn r n m s a t)
    (h : s.registered?.isSome = true ∨ s.status?.isSome = true) :
    (t.stage.registered?.isSome = true ∨ t.stage.status?.isSome = true) ∨
      ∃ state ok, s = .concluding state ∧ a = .accepted ok ∧
        t.stage = .done (if ok then .delete else .keep) := by
  cases turn with
  | begin | finish => exact .inl (.inl rfl)
  | fail | close | upload | link => exact .inl (.inr rfl)
  | settle => exact .inr ⟨_, _, rfl, rfl, rfl⟩
  | _ => simp_all [Stage.registered?, Stage.status?]

end Runner

/-! ## The latest run of a check -/

namespace History

variable {h : History} {c : String} {e : RunnerEvent} {r' : Runner} {out : List Effect}

/-- Call `o` runs its check, reports on it, or was refused. -/
def Reporting (h : History) (o : Nat) : Prop :=
  ∃ s, h.now.stage? o = some s ∧
    (s.registered?.isSome = true ∨ s.status?.isSome = true ∨
      s = .done .keep ∧ ∃ m ∈ h.moments, m.Refuses o)

/-- How a check stands of which no final state has been accepted. -/
structure Pending (h : History) (c : String) : Prop where
  /-- Whoever deleted a message of the check dropped it. -/
  dropped : ∀ {x}, h.now.checkId? x = some c → h.now.stage? x = some (.done .delete) →
    ∃ m ∈ h.moments, m.Drops x c
  /-- A run that has ended stays so. -/
  ended : ∀ m ∈ h.moments, ∀ o s, m.before.stage? o = some s → s.isPast = true →
    ∃ s', h.now.stage? o = some s' ∧ s'.isPast = true
  /-- If anything was dropped, it was dropped before the end of the latest run. -/
  latest : (∃ m ∈ h.moments, ∃ x, m.Drops x c) →
    ∃ o, h.now.checkId? o = some c ∧ h.Reporting o ∧
      ∀ m ∈ h.moments, ∀ x, m.Drops x c → ∀ s, m.before.stage? o = some s → s.isPast = false

theorem Accepts.mono (ha : h.Accepts c) : (h.after e out r').Accepts c := by
  obtain ⟨m, hm, accepted⟩ := ha
  exact ⟨m, mem_after_of_mem hm, accepted⟩

/-- The final state of a check is accepted when a call that concludes is told so. -/
theorem accepts_of_settle (hr : h.now.Consistent) {n : Nat} {state : CheckState}
    (stage : h.now.stage? n = some (.concluding state)) (check : h.now.checkId? n = some c) :
    (h.after (.advance n (.accepted true)) out r').Accepts c := by
  refine ⟨_, last_mem_after, state, ?_, ?_, hr.final stage rfl⟩
  · simp [Moment.accepted?, stage]
  · exact Option.some.inj ((hr.check stage rfl).symm.trans check)

theorem reporting_step (hr : h.now.Consistent) (step : h.now.step e = some (r', out)) {o : Nat}
    (check : h.now.checkId? o = some c) (ho : h.Reporting o) :
    (h.after e out r').Accepts c ∨ (h.after e out r').Reporting o := by
  obtain ⟨s, hs, ho⟩ := ho
  have keep (hs' : r'.stage? o = some s) : (h.after e out r').Reporting o := by
    refine ⟨s, hs', ho.imp_right fun ho => ho.imp_right fun ⟨keep, m, hm, refuses⟩ => ?_⟩
    exact ⟨keep, m, mem_after_of_mem hm, refuses⟩
  cases step_of_eq step with
  | deliver fresh stages _ _ =>
    refine .inr (keep ?_)
    rw [stages, if_neg (by rintro rfl; rw [fresh] at hs; cases hs)]
    exact hs
  | beside _ _ stages _ _ _ => exact .inr (keep ((stages o).trans hs))
  | @turn n msg s' a t stage _ turn stages _ _ =>
    by_cases hn : o = n
    · subst hn
      rw [stage] at hs
      cases hs
      rcases or_assoc.mpr ho with ho | ⟨rfl, -⟩
      · rcases turn.reporting ho with now | ⟨state, ok, rfl, rfl, now⟩
        · exact .inr ⟨t.stage, by rw [now_after, stages, if_pos rfl], or_assoc.mp (.inl now)⟩
        · cases ok with
          | true => exact .inl (accepts_of_settle hr stage check)
          | false =>
            have gone : r'.stage? o = some (.done .keep) := by rw [stages, if_pos rfl, now]; rfl
            exact .inr ⟨_, gone, .inr (.inr ⟨rfl, _, last_mem_after, rfl, state, stage⟩)⟩
      · cases turn
    · exact .inr (keep (by rw [stages, if_neg hn]; exact hs))

theorem dropped_step (hr : h.now.Consistent) (hp : h.Pending c)
    (step : h.now.step e = some (r', out)) {x : Nat} (check : r'.checkId? x = some c)
    (deleted : r'.stage? x = some (.done .delete)) :
    (h.after e out r').Accepts c ∨ ∃ m ∈ (h.after e out r').moments, m.Drops x c := by
  have old (check : h.now.checkId? x = some c) (hs : h.now.stage? x = some (.done .delete)) :
      ∃ m ∈ (h.after e out r').moments, m.Drops x c := by
    obtain ⟨m, hm, drops⟩ := hp.dropped check hs
    exact ⟨m, mem_after_of_mem hm, drops⟩
  cases step_of_eq step with
  | deliver fresh stages messages _ =>
    rw [stages] at deleted
    split at deleted
    · cases deleted
    · next hne =>
      rw [checkId?, messages, if_neg hne] at check
      exact .inr (old check deleted)
  | beside _ _ stages messages _ _ =>
    rw [stages] at deleted
    rw [checkId?, messages] at check
    exact .inr (old check deleted)
  | @turn n msg s a t stage message turn stages messages _ =>
    rw [stages] at deleted
    have before : h.now.checkId? x = some c := by rwa [checkId?, ← messages]
    split at deleted
    · next hx =>
      subst hx
      have gone := Option.some.inj deleted
      rcases turn.deleted gone with none | ⟨job, rfl⟩ | ⟨state, rfl, rfl⟩
      · simp [checkId?, message, none] at before
      · refine .inr ⟨_, last_mem_after, job, stage, ?_, ?_⟩
        · exact Option.some.inj ((hr.check stage rfl).symm.trans before)
        · simp [stages, gone]
      · exact .inl (accepts_of_settle hr stage before)
    · exact .inr (old before deleted)

theorem owner_of_drops (hr : h.now.Consistent) (step : h.now.step e = some (r', out)) {x : Nat}
    (drops : Moment.Drops ⟨h.now, e, out, r'⟩ x c) :
    ∃ o s, h.now.stage? o = some s ∧ s.registered?.isSome = true ∧ h.now.checkId? o = some c ∧
      r'.stage? o = some s := by
  obtain ⟨job, before, rfl, after⟩ := drops
  dsimp only at before after
  cases step_of_eq step with
  | deliver fresh stages _ _ =>
    rw [stages] at after
    split at after
    · cases after
    · rw [before] at after; cases after
  | beside _ _ stages _ _ _ => rw [stages, before] at after; cases after
  | @turn n msg s a t stage _ turn stages _ _ =>
    rw [stages] at after
    split at after
    · next hx =>
      subst hx
      rw [stage] at before
      cases before
      have gone := Option.some.inj after
      cases turn with
      | register free => cases gone
      | drop taken =>
        obtain ⟨o, ho⟩ := Option.isSome_iff_exists.mp taken
        obtain ⟨s, job', hs, registered, same⟩ := hr.owner.mp ho
        have hne : o ≠ x := by rintro rfl; rw [stage] at hs; cases hs; cases registered
        exact ⟨o, s, hs, by simp [registered],
          same ▸ hr.check hs (Stage.checkId?_of_registered? registered), by
            rw [stages, if_neg hne]; exact hs⟩
    · rw [before] at after; cases after

theorem Pending.latest_now (hr : h.now.Consistent) (hp : h.Pending c)
    (step : h.now.step e = some (r', out)) {x : Nat}
    (drops : Moment.Drops ⟨h.now, e, out, r'⟩ x c) :
    ∃ o, (h.after e out r').now.checkId? o = some c ∧ (h.after e out r').Reporting o ∧
      ∀ m ∈ (h.after e out r').moments, ∀ x, m.Drops x c →
        ∀ s, m.before.stage? o = some s → s.isPast = false := by
  obtain ⟨o, s, hs, registered, check, after⟩ := owner_of_drops hr step drops
  have notPast : s.isPast = false := by
    simp [Stage.isPast, Option.isNone_eq_false_iff, registered]
  refine ⟨o, checkId?_step (step_of_eq step) check, ⟨s, after, .inl registered⟩, ?_⟩
  intro m hm _ _ s' hs'
  rcases mem_after.mp hm with hm | rfl
  · -- had the run ended at an earlier moment, it would have ended now
    refine Bool.eq_false_iff.mpr fun past => ?_
    obtain ⟨s'', hs'', past''⟩ := hp.ended m hm o s' hs' past
    rw [hs] at hs''
    cases hs''
    rw [notPast] at past''
    cases past''
  · rw [hs] at hs'
    cases hs'
    exact notPast

theorem Pending.step (hr : h.now.Consistent) (hp : h.Pending c)
    (step : h.now.step e = some (r', out)) :
    (h.after e out r').Accepts c ∨ (h.after e out r').Pending c := by
  by_cases accepts : (h.after e out r').Accepts c
  · exact .inl accepts
  refine .inr ⟨fun check deleted => ?_, fun m hm o s hs past => ?_, fun some => ?_⟩
  · exact (dropped_step hr hp step check deleted).resolve_left accepts
  · rcases mem_after.mp hm with hm | rfl
    · obtain ⟨s', hs', past'⟩ := hp.ended m hm o s hs past
      exact isPast_step (step_of_eq step) hs' past'
    · exact isPast_step (step_of_eq step) hs past
  by_cases now : ∃ x, Moment.Drops ⟨h.now, e, out, r'⟩ x c
  · obtain ⟨x, drops⟩ := now
    exact hp.latest_now hr step drops
  · have earlier (m : Moment) (hm : m ∈ (h.after e out r').moments) (x : Nat)
        (drops : m.Drops x c) : m ∈ h.moments := by
      rcases mem_after.mp hm with hm | rfl
      · exact hm
      · exact absurd ⟨x, drops⟩ now
    obtain ⟨m, hm, x, drops⟩ := some
    obtain ⟨o, check, reporting, before⟩ := hp.latest ⟨m, earlier m hm x drops, x, drops⟩
    refine ⟨o, checkId?_step (step_of_eq step) check, ?_, ?_⟩
    · exact (reporting_step hr step check reporting).resolve_left accepts
    · exact fun m hm x drops => before m (earlier m hm x drops) x drops

variable (timeLimit : Span) (abortList : Option AbortList) (events : List RunnerEvent)

theorem accepts_or_pending (c : String) :
    ((Runner.start timeLimit abortList).history events).Accepts c ∨
      ((Runner.start timeLimit abortList).history events).Pending c := by
  refine induct_consistent timeLimit abortList events (P := fun h => h.Accepts c ∨ h.Pending c)
    (.inr ⟨?_, by simp, by simp⟩) ?_
  · intro x check
    simp [checkId?, message?, Runner.start] at check
  · intro h e r' out hr ih step
    rcases ih with ha | hp
    · exact .inl ha.mono
    · exact hp.step hr step

theorem mem_callsFor {h : History} {c : String} {call : Call} :
    call ∈ h.callsFor c ↔ ∃ n, h.now.calls.get? n = some call ∧ h.now.checkId? n = some c := by
  simp only [callsFor, List.mem_filter, List.mem_map, Prod.exists, decide_eq_true_eq]
  constructor
  · rintro ⟨⟨n, _, hn, rfl⟩, check⟩
    have hn := (h.now.calls.mem_entries_iff n _).mp hn
    exact ⟨n, hn, by simpa [checkId?, message?, hn] using check⟩
  · rintro ⟨n, hn, check⟩
    exact ⟨⟨n, call, (h.now.calls.mem_entries_iff n call).mpr hn, rfl⟩, by
      simpa [checkId?, message?, hn] using check⟩

theorem AllDeleted.exists_deleter {h : History} {c : String} (deleted : h.AllDeleted c) {n : Nat}
    {m : Message} (hm : h.now.message? n = some m) (check : h.now.checkId? n = some c) :
    ∃ n' m', h.now.message? n' = some m' ∧ m'.id = m.id ∧
      h.now.stage? n' = some (.done .delete) := by
  obtain ⟨call, hn, rfl⟩ := Option.map_eq_some_iff.mp hm
  obtain ⟨⟨n', call'⟩, hn', id, gone⟩ := deleted call (mem_callsFor.mpr ⟨n, hn, check⟩)
  have hn' := (h.now.calls.mem_entries_iff n' call').mp hn'
  refine ⟨n', call'.message, by simp [message?, hn'], id, ?_⟩
  cases hs : call'.stage <;> simp_all [stage?, Stage.disposition?]

/-! ## A message that comes again while its run goes on -/

/-- A message comes to a first call, which runs the check, and again to a second one, which drops
it. The final report of the first call is refused. -/
def redelivery : List RunnerEvent := [
  .deliver 0 (.asking "m" "c"), .advance 0 .onward, .advance 0 .onward,
  .advance 0 (.accepted true),
  .deliver 1 (.asking "m" "c"), .advance 1 .onward, .advance 1 .onward,
  .advance 0 (.outcome (.ok [])), .advance 0 .onward, .advance 0 (.accepted false)]

instance (h : History) (c : String) : Decidable (h.Delivered c) := by
  unfold Delivered; infer_instance
instance (h : History) (c : String) : Decidable (h.AtRest c) := by unfold AtRest; infer_instance
instance (h : History) (c : String) : Decidable (h.AllDeleted c) := by
  unfold AllDeleted; infer_instance
instance (h : History) (c : String) : Decidable (h.Accepts c) := by unfold Accepts; infer_instance

/-! ## The result -/

/-- **A final state of the check was accepted, or the check was undercut.** -/
theorem accepts_or_undercut {c : String}
    (delivered : ((Runner.start timeLimit abortList).history events).Delivered c)
    (rest : ((Runner.start timeLimit abortList).history events).AtRest c)
    (deleted : ((Runner.start timeLimit abortList).history events).AllDeleted c) :
    ((Runner.start timeLimit abortList).history events).Accepts c ∨
      ((Runner.start timeLimit abortList).history events).Undercut c := by
  refine (accepts_or_pending timeLimit abortList events c).imp_right fun hp => ?_
  generalize (Runner.start timeLimit abortList).history events = h at delivered rest deleted hp
  obtain ⟨call, hcall⟩ := List.exists_mem_of_ne_nil _ delivered
  obtain ⟨n, -, hn⟩ := mem_callsFor.mp hcall
  obtain ⟨m, hm, check⟩ := Option.bind_eq_some_iff.mp hn
  obtain ⟨x, mx, hmx, id, gone⟩ := deleted.exists_deleter hm hn
  by_cases same : mx.checkId? = some c
  · obtain ⟨d, hd, drops⟩ := hp.dropped (by simp [checkId?, hmx, same]) gone
    obtain ⟨o, ho, ⟨s, hs, reporting⟩, before⟩ := hp.latest ⟨d, hd, x, drops⟩
    obtain ⟨mo, hmo, check⟩ := Option.bind_eq_some_iff.mp ho
    have refused : ∃ m ∈ h.moments, m.Refuses o := by
      obtain ⟨call, hcall, rfl⟩ := Option.map_eq_some_iff.mp hs
      have ended := rest call (mem_callsFor.mpr ⟨o, hcall, ho⟩)
      cases hstage : call.stage <;>
        simp_all [Stage.isOver, Stage.registered?, Stage.status?]
    obtain ⟨y, my, hmy, id, gone⟩ := deleted.exists_deleter hmo ho
    refine ⟨o, y, mo, my, hmo, check, hmy, id, gone, or_iff_not_imp_left.mpr fun same => ?_⟩
    obtain ⟨d, hd, drops⟩ := hp.dropped (by simpa [checkId?, hmy] using same) gone
    exact ⟨refused, d, hd, drops, before d hd y drops⟩
  · exact ⟨n, x, m, mx, hm, check, hmx, id, gone, .inl same⟩

/-- A check whose message is dropped while its own run goes on is undercut. -/
theorem redelivery_undercut :
    ((Runner.start ⟨0⟩ none).history redelivery).Delivered "c" ∧
    ((Runner.start ⟨0⟩ none).history redelivery).AtRest "c" ∧
    ((Runner.start ⟨0⟩ none).history redelivery).AllDeleted "c" ∧
    ((Runner.start ⟨0⟩ none).history redelivery).Undercut "c" := by
  have delivered : ((Runner.start ⟨0⟩ none).history redelivery).Delivered "c" := by decide +kernel
  have rest : ((Runner.start ⟨0⟩ none).history redelivery).AtRest "c" := by decide +kernel
  have deleted : ((Runner.start ⟨0⟩ none).history redelivery).AllDeleted "c" := by decide +kernel
  refine ⟨delivered, rest, deleted, ?_⟩
  exact (accepts_or_undercut ⟨0⟩ none redelivery delivered rest deleted).resolve_left
    (by decide +kernel)

/-- The check of a message that is deleted while its own run goes on may be lost. -/
theorem redelivered_message_lost :
    ((Runner.start ⟨0⟩ none).history redelivery).Delivered "c" ∧
    ((Runner.start ⟨0⟩ none).history redelivery).AtRest "c" ∧
    ((Runner.start ⟨0⟩ none).history redelivery).AllDeleted "c" ∧
    ¬ ((Runner.start ⟨0⟩ none).history redelivery).Accepts "c" := by
  decide +kernel

end History

end CheckAgent
