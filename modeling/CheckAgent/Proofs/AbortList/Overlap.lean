import CheckAgent.Proofs.AbortList.Lookups
import CheckAgent.Text.Utf8

/-!
# Lists that are overtaken

A lookup stores the list that it was given some time after that, and meanwhile another lookup may be
given a newer list and store it. Then the older list takes the place of the newer one.

**Order** (`Ordered`). Whoever is about to store a list was given the newest one, or was given its
list before that. The newest list is about to be stored, or was stored last, or it has been
replaced by a list that was given before it and stored after it.

**Main result** (`stored_last`). The list is always the one that was stored last. While no lookup is
going on, this is the newest one unless lookups overlapped in that way, and they can
(`stale_list`).
-/

namespace CheckAgent

/-! ## Who is about to store a list -/

namespace Lookups

variable {s : Lookups} {list list' : AbortList} {n m : Nat} {checkId : String} {l l' : Lookup}
  {names : List String} {deeds : List Deed}

theorem Stores.inProgress (stores : s.Stores n names) : s.InProgress n := by
  obtain ⟨checkId, known⟩ := stores
  exact ⟨checkId, _, known, rfl⟩

theorem stores_set : Stores ⟨list', s.askers.set n ⟨checkId, l'⟩⟩ m names ↔
    m = n ∧ l' = .storing names ∨ m ≠ n ∧ s.Stores m names := by
  simp only [Stores, Table.get?_set]
  split <;> simp [*]

theorem stores_of_get? (known : s.askers.get? n = some ⟨checkId, l⟩) :
    s.Stores n names ↔ l = .storing names := by
  simp [Stores, known]

/-- What a step has to do with lists: nothing, or one is given, or one is stored. -/
inductive Goes.Hands : Lookup → List Deed → Lookup → Prop where
  | nothing {l l' : Lookup} {deeds : List Deed}
      (none : ∀ n, givenIn (deeds.map fun deed => (n, deed)) = [] ∧
        storedIn (deeds.map fun deed => (n, deed)) = [])
      (before : ∀ names, l ≠ .storing names) (after : ∀ names, l' ≠ .storing names) :
      Hands l deeds l'
  | given {l : Lookup} {x : Exchange} {names : List String} (read : AbortList.read x = .ok names)
      (before : ∀ names, l ≠ .storing names) : Hands l [.received x] (.storing names)
  | stored {l' : Lookup} {names : List String} (after : ∀ names, l' ≠ .storing names) :
      Hands (.storing names) [.stored names] l'

theorem Goes.hands (goes : Goes list checkId l deeds l' list') : Goes.Hands l deeds l' := by
  cases goes with
  | look =>
    refine .nothing (fun n => ⟨rfl, rfl⟩) (by simp) ?_
    unfold AbortList.check
    split <;> simp
  | @answer i x chance =>
    cases read : AbortList.read x with
    | ok names =>
      have storing : list.answer i x chance = .storing names := by simp [AbortList.answer, read]
      rw [storing]
      exact .given read (by simp)
    | error e =>
      refine .nothing (fun n => ⟨?_, rfl⟩) (by simp) ?_
      · simp [givenIn, read, Except.toOption]
      · unfold AbortList.answer
        rw [read]
        dsimp only
        cases list.retryer.verdict i e.kind chance <;> simp
  | rest => exact .nothing (fun n => ⟨rfl, rfl⟩) (by simp) (by simp)
  | store => exact .stored (by simp [AbortList.store])

end Lookups

/-! ## The order of lists -/

/-- Somebody was given a list before another one was given one, and more was done after that. -/
def GivenFirst (log : List (Nat × Deed)) (n : Nat) (old : List String) (m : Nat)
    (new : List String) (later : List (Nat × Deed)) : Prop :=
  ∃ x y, AbortList.read x = .ok old ∧ AbortList.read y = .ok new ∧
    ((n, .received x) :: (m, .received y) :: later).Sublist log

namespace GivenFirst

variable {log later out : List (Nat × Deed)} {n m : Nat} {old new : List String}

theorem of_mem {x y : Exchange} (given : (n, .received x) ∈ log)
    (read : AbortList.read x = .ok old) (read' : AbortList.read y = .ok new) :
    GivenFirst (log ++ [(m, .received y)]) n old m new [] :=
  ⟨x, y, read, read', (List.singleton_sublist.mpr given).append (List.Sublist.refl _)⟩

theorem snoc (first : GivenFirst log n old m new later) (out : List (Nat × Deed)) :
    GivenFirst (log ++ out) n old m new (later ++ out) := by
  obtain ⟨x, y, read, read', sub⟩ := first
  exact ⟨x, y, read, read', sub.append (List.Sublist.refl out)⟩

theorem mono (first : GivenFirst log n old m new later) (out : List (Nat × Deed)) :
    GivenFirst (log ++ out) n old m new later := by
  obtain ⟨x, y, read, read', sub⟩ := first
  exact ⟨x, y, read, read', sub.trans (List.sublist_append_left log out)⟩

end GivenFirst

namespace LookupHistory

/-- Lists are stored in the order in which they were given, or it is known how they were not. -/
structure Ordered (h : LookupHistory) : Prop where
  waiting : ∀ n old, h.now.Stores n old → ∀ m new, (givenIn h.log).getLast? = some (m, new) →
    n = m ∧ old = new ∨ n ≠ m ∧ GivenFirst h.log n old m new [] ∧
      (¬ h.now.Stores m new → GivenFirst h.log n old m new [(m, .stored new)])
  newest : ∀ m new, (givenIn h.log).getLast? = some (m, new) →
    h.now.Stores m new ∨ (storedIn h.log).getLast? = some (m, new) ∨
      ∃ n old, n ≠ m ∧ (storedIn h.log).getLast? = some (n, old) ∧
        GivenFirst h.log n old m new [(m, .stored new), (n, .stored old)]

variable {h : LookupHistory} {r : Retryer} {s' : Lookups} {out : List (Nat × Deed)}

/-- Nothing changes in the order while nothing is given or stored. -/
theorem Ordered.of_quiet (ordered : h.Ordered) (given : givenIn out = [])
    (stored : storedIn out = []) (stores : ∀ n names, s'.Stores n names ↔ h.now.Stores n names) :
    Ordered ⟨s', h.log ++ out⟩ := by
  constructor
  · intro n old waits m new last
    rw [givenIn_append, given, List.append_nil] at last
    have known := ordered.waiting n old ((stores n old).mp waits) m new last
    rcases known with same | ⟨other, first, more⟩
    · exact .inl same
    · refine .inr ⟨other, first.mono out, fun gone => (more ?_).mono out⟩
      exact fun waits => gone ((stores m new).mpr waits)
  · intro m new last
    rw [givenIn_append, given, List.append_nil] at last
    rw [storedIn_append, stored, List.append_nil]
    rcases ordered.newest m new last with waits | current | ⟨n, old, other, replaced, first⟩
    · exact .inl ((stores m new).mpr waits)
    · exact .inr (.inl current)
    · exact .inr (.inr ⟨n, old, other, replaced, first.mono out⟩)

/-- The list that somebody is given is the newest one. -/
theorem Sound.ordered_given (sound : h.Sound r) {n : Nat} {checkId : String}
    {x : Exchange} {names : List String} {list' : AbortList}
    (read : AbortList.read x = .ok names) :
    Ordered ⟨⟨list', h.now.askers.set n ⟨checkId, .storing names⟩⟩,
      h.log ++ [(n, .received x)]⟩ := by
  have last : (givenIn (h.log ++ [(n, .received x)])).getLast? = some (n, names) := by
    simp [givenIn_received, read, Except.toOption]
  have stores : Lookups.Stores ⟨list', h.now.askers.set n ⟨checkId, .storing names⟩⟩ n names :=
    Lookups.stores_set.mpr (.inl ⟨rfl, rfl⟩)
  constructor
  · intro k old waits m new newest
    rw [last] at newest
    cases newest
    rcases Lookups.stores_set.mp waits with ⟨rfl, same⟩ | ⟨other, waits⟩
    · cases same
      exact .inl ⟨rfl, rfl⟩
    · obtain ⟨checkId', known⟩ := waits
      obtain ⟨y, received, read'⟩ := (sound.course k checkId' _ known).given_of_storing rfl
      refine .inr ⟨other, .of_mem (mem_deedsOf.mp received) read' read, ?_⟩
      intro gone
      exact absurd stores gone
  · intro m new newest
    rw [last] at newest
    cases newest
    exact .inl stores

/-- Whoever stores a list stores the newest one, or one that was given before it. -/
theorem Ordered.stored (ordered : h.Ordered) {n : Nat} {checkId : String} {l' : Lookup}
    {names : List String} {list' : AbortList} (waits : h.now.Stores n names)
    (after : ∀ names, l' ≠ .storing names) :
    Ordered ⟨⟨list', h.now.askers.set n ⟨checkId, l'⟩⟩, h.log ++ [(n, .stored names)]⟩ := by
  have given : givenIn (h.log ++ [(n, .stored names)]) = givenIn h.log := by simp [givenIn]
  have last : (storedIn (h.log ++ [(n, .stored names)])).getLast? = some (n, names) := by
    simp [storedIn]
  have stores (m : Nat) (list : List String) :
      Lookups.Stores ⟨list', h.now.askers.set n ⟨checkId, l'⟩⟩ m list ↔
        m ≠ n ∧ h.now.Stores m list := by
    rw [Lookups.stores_set]
    simp [after]
  constructor
  · intro k old waits' m new newest
    dsimp only at newest
    rw [given] at newest
    obtain ⟨other, waits'⟩ := (stores k old).mp waits'
    rcases ordered.waiting k old waits' m new newest with same | ⟨different, first, more⟩
    · exact .inl same
    · refine .inr ⟨different, first.mono _, ?_⟩
      intro gone
      by_cases same : m = n
      · -- the newest list has just been stored
        subst same
        rcases ordered.waiting m names waits m new newest with ⟨-, rfl⟩ | ⟨absurd, -⟩
        · exact first.snoc _
        · exact (absurd rfl).elim
      · refine (more ?_).mono _
        intro waits
        exact gone ((stores m new).mpr ⟨same, waits⟩)
  · intro m new newest
    dsimp only at newest ⊢
    rw [given] at newest
    rw [last]
    rcases ordered.waiting n names waits m new newest with ⟨rfl, rfl⟩ | ⟨different, first, more⟩
    · exact .inr (.inl rfl)
    · by_cases waits' : h.now.Stores m new
      · exact .inl ((stores m new).mpr ⟨Ne.symm different, waits'⟩)
      · exact .inr (.inr ⟨n, names, different, rfl, (more waits').snoc _⟩)

theorem Ordered.step (ordered : h.Ordered) (sound : h.Sound r) (step : h.now.Step s' out) :
    Ordered ⟨s', h.log ++ out⟩ := by
  cases step with
  | @begin n checkId fresh =>
    refine ordered.of_quiet rfl rfl ?_
    intro m names
    rw [Lookups.stores_set]
    by_cases same : m = n
    · simp [same, Lookups.Stores, fresh]
    · simp [same]
  | @go n checkId l l' list' deeds known goes =>
    cases goes.hands with
    | nothing none before after =>
      refine ordered.of_quiet (none n).1 (none n).2 ?_
      intro m names
      rw [Lookups.stores_set]
      by_cases same : m = n
      · subst same
        simp [Lookups.stores_of_get? known, before, after]
      · simp [same]
    | given read before => exact sound.ordered_given read
    | stored after => exact ordered.stored ⟨checkId, known⟩ after

theorem ordered (r : Retryer) (events : List LookupEvent) : (r.lookups events).Ordered := by
  suffices both : (r.lookups events).Sound r ∧ (r.lookups events).Ordered from both.2
  refine induct (P := fun h => h.Sound r ∧ h.Ordered) ⟨sound r [], ?_⟩ ?_ events
  · constructor
    · intro n old waits m new last
      cases last
    · intro m new last
      cases last
  · intro h s' out both step
    exact ⟨both.1.step step, both.2.step both.1 step⟩

/-- **The list is the one that was stored last.** While no lookup is going on, that is the newest
one, or one that was given before it and stored after it. -/
theorem stored_last (r : Retryer) (events : List LookupEvent) :
    (r.lookups events).now.list.ids = newest (storedIn (r.lookups events).log) ∧
    ((∀ n, ¬ (r.lookups events).now.InProgress n) →
      givenIn (r.lookups events).log = [] ∧ storedIn (r.lookups events).log = [] ∨
      ∃ m new, (givenIn (r.lookups events).log).getLast? = some (m, new) ∧
        ((storedIn (r.lookups events).log).getLast? = some (m, new) ∨
          ∃ n old, n ≠ m ∧ (storedIn (r.lookups events).log).getLast? = some (n, old) ∧
            GivenFirst (r.lookups events).log n old m new
              [(m, .stored new), (n, .stored old)])) := by
  have sound := sound r events
  refine ⟨sound.ids, ?_⟩
  intro idle
  cases last : (givenIn (r.lookups events).log).getLast? with
  | none =>
    have none := List.getLast?_eq_none_iff.mp last
    refine .inl ⟨none, List.eq_nil_iff_forall_not_mem.mpr ?_⟩
    intro entry stored
    have given := sound.given_of_stored stored
    rw [none] at given
    cases given
  | some entry =>
    obtain ⟨m, new⟩ := entry
    refine .inr ⟨m, new, rfl, ?_⟩
    rcases (ordered r events).newest m new last with stores | current | overtaken
    · exact absurd stores.inProgress (idle m)
    · exact .inl current
    · exact .inr overtaken

/-! ## A list that comes back -/

/-- What comes of a request that a service answers. -/
def listing (body : String) : Exchange := .answered 200 (Text.Utf8.encode body.toList)

/-- Two lookups at the same time: the one that is given its list first stores it last. -/
def overlapping : List LookupEvent := [
    .ask 0 "c", .look 0, .ask 1 "d", .look 1,
    .answer 0 (listing "[\"c\"]") .plain, .answer 1 (listing "[\"d\"]") .plain,
    .store 1, .store 0]

/-- A retryer that does not retry. -/
def once : Retryer := .doubling 0 ⟨0⟩

/-- No lookup is going on, and the list is not the newest one but the one before it, which a new
lookup goes by. -/
theorem stale_list :
    (∀ n, ¬ (once.lookups overlapping).now.InProgress n) ∧
    newest (givenIn (once.lookups overlapping).log) = ["d"] ∧
    (once.lookups overlapping).now.list.ids = ["c"] ∧
    (once.lookups (overlapping ++ [.ask 2 "c", .look 2])).now.askers.get? 2 =
      some ⟨"c", .found true⟩ := by
  have ended : ∀ entry ∈ (once.lookups overlapping).now.askers.entries,
      entry.2.lookup.isOver = true := by decide +kernel
  refine ⟨?_, by decide +kernel, by decide +kernel, by decide +kernel⟩
  rintro n ⟨checkId, l, known, going⟩
  rw [ended _ ((Table.mem_entries_iff ..).mpr known)] at going
  cases going

end LookupHistory

end CheckAgent
