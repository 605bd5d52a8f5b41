import Mathlib.Data.List.Induction
import CheckAgent.AbortList
import CheckAgent.Table
import CheckAgent.Proofs.Retry.Course

/-!
# Lookups at the same time

Several lookups of one list may be going on. Each of them **looks** into the list, takes in what
comes of its **requests**, rests between these, and **stores** the list that it was given. The steps
of different lookups come in any order. A history keeps a log of what was done, and by whom.

**The course of a lookup** (`LookupCourse`). Where a lookup is follows from what it has done itself.
The list matters to it only when it looks, and only storing changes the list.

**Main result** (`lookups_answer_their_own`). The list is empty or was given to some lookup. A
lookup answers by the list if its check was in it when it looked, and otherwise by what it was given
itself; it repeats a request only if no answer came of it. While lookups follow each other, the list
is the newest one that the service has given.
-/

namespace CheckAgent

/-! ## Steps of lookups -/

inductive Deed where
  /-- It looks into the list, which has some names. -/
  | looked (names : List String)
  /-- It takes in what came of a request. -/
  | received (exchange : Exchange)
  /-- It puts some names in the place of the list. -/
  | stored (names : List String)
  deriving DecidableEq, Repr

/-- Somebody who looks up a check. -/
structure Asker where
  checkId : String
  lookup : Lookup
  deriving DecidableEq, Repr

/-- A list with those who look up checks in it. -/
structure Lookups where
  list : AbortList
  askers : Table Nat Asker
  deriving DecidableEq, Repr

/-- What may happen to lookups. -/
inductive LookupEvent where
  /-- Somebody begins to look up a check. -/
  | ask (n : Nat) (checkId : String)
  | look (n : Nat)
  | answer (n : Nat) (exchange : Exchange) (chance : Chance)
  /-- A delay is over. -/
  | rest (n : Nat)
  | store (n : Nat)
  deriving DecidableEq, Repr

def Lookup.isOver : Lookup → Bool
  | .found _ | .failed _ | .broken _ => true
  | _ => false

/-- Whether no answer came of a request. -/
def Exchange.isCut : Exchange → Bool
  | .unreachable _ | .lost _ => true
  | .answered _ _ => false

namespace Lookups

def move (s : Lookups) (n : Nat) (checkId : String) (lookup : Lookup) : Lookups :=
  { s with askers := s.askers.set n ⟨checkId, lookup⟩ }

/-- What an event makes of lookups, and what is done in it; nothing if it cannot happen. -/
def step (s : Lookups) : LookupEvent → Option (Lookups × List (Nat × Deed))
  | .ask n checkId =>
    if s.askers.contains n then none else some (s.move n checkId .checking, [])
  | .look n =>
    match s.askers.get? n with
    | some ⟨id, .checking⟩ => some (s.move n id (s.list.check id), [(n, .looked s.list.ids)])
    | _ => none
  | .answer n x chance =>
    match s.askers.get? n with
    | some ⟨id, .requesting i⟩ => some (s.move n id (s.list.answer i x chance), [(n, .received x)])
    | _ => none
  | .rest n =>
    match s.askers.get? n with
    | some ⟨id, .resting i _⟩ => some (s.move n id (.requesting i), [])
    | _ => none
  | .store n =>
    match s.askers.get? n with
    | some ⟨id, .storing names⟩ =>
      let (list, lookup) := s.list.store id names
      some ({ s.move n id lookup with list }, [(n, .stored names)])
    | _ => none

/-- What somebody who looks up a check does, and what becomes of the lookup and the list. -/
inductive Goes (list : AbortList) (checkId : String) :
    Lookup → List Deed → Lookup → AbortList → Prop where
  | look : Goes list checkId .checking [.looked list.ids] (list.check checkId) list
  | answer {i : Nat} {x : Exchange} {chance : Chance} :
      Goes list checkId (.requesting i) [.received x] (list.answer i x chance) list
  | rest {i : Nat} {d : Span} : Goes list checkId (.resting i d) [] (.requesting i) list
  | store {names : List String} :
      Goes list checkId (.storing names) [.stored names] (list.store checkId names).2
        (list.store checkId names).1

/-- What comes of an event: somebody begins, or goes on. -/
inductive Step (s : Lookups) : Lookups → List (Nat × Deed) → Prop where
  | begin {n : Nat} {checkId : String} (fresh : s.askers.get? n = none) :
      Step s ⟨s.list, s.askers.set n ⟨checkId, .checking⟩⟩ []
  | go {n : Nat} {checkId : String} {l l' : Lookup} {list' : AbortList} {deeds : List Deed}
      (known : s.askers.get? n = some ⟨checkId, l⟩) (goes : Goes s.list checkId l deeds l' list') :
      Step s ⟨list', s.askers.set n ⟨checkId, l'⟩⟩ (deeds.map fun deed => (n, deed))

theorem step_of_eq {s s' : Lookups} {e : LookupEvent} {out : List (Nat × Deed)}
    (h : s.step e = some (s', out)) : Step s s' out := by
  cases e with
  | ask n checkId =>
    simp only [step] at h
    split at h
    · cases h
    · next fresh =>
      cases h
      exact .begin (Table.get?_of_not_contains fresh)
  | look n =>
    simp only [step] at h
    split at h <;> cases h
    next known => exact .go known .look
  | answer n x chance =>
    simp only [step] at h
    split at h <;> cases h
    next known => exact .go known .answer
  | rest n =>
    simp only [step] at h
    split at h <;> cases h
    next known => exact .go known .rest
  | store n =>
    simp only [step] at h
    split at h <;> cases h
    next known => exact .go known .store

theorem exists_step {s s' : Lookups} {out : List (Nat × Deed)} (step : Step s s' out) :
    ∃ e, s.step e = some (s', out) := by
  cases step with
  | @begin n checkId fresh =>
    exact ⟨.ask n checkId, by simp [Lookups.step, Table.contains, fresh, move]⟩
  | @go n _ _ _ _ _ known goes =>
    cases goes with
    | look => exact ⟨.look n, by simp [Lookups.step, known, move]⟩
    | @answer i x chance => exact ⟨.answer n x chance, by simp [Lookups.step, known, move]⟩
    | rest => exact ⟨.rest n, by simp [Lookups.step, known, move]⟩
    | store => exact ⟨.store n, by simp [Lookups.step, known, move]⟩

end Lookups

/-! ## Histories -/

def deedsOf (log : List (Nat × Deed)) (n : Nat) : List Deed :=
  log.filterMap fun entry => if entry.1 = n then some entry.2 else none

/-- The lists that the service gave, and to whom, the newest one last. -/
def givenIn (log : List (Nat × Deed)) : List (Nat × List String) :=
  log.filterMap fun entry =>
    match entry.2 with
    | .received x => (AbortList.read x).toOption.map fun names => (entry.1, names)
    | _ => none

/-- The lists that were stored, and by whom, the last one last. -/
def storedIn (log : List (Nat × Deed)) : List (Nat × List String) :=
  log.filterMap fun entry =>
    match entry.2 with
    | .stored names => some (entry.1, names)
    | _ => none

/-- The names in the last of some lists, if there is one. -/
def newest (lists : List (Nat × List String)) : List String :=
  (lists.getLast?.map (·.2)).getD []

/-- Lookups, and what was done so far. -/
structure LookupHistory where
  now : Lookups
  log : List (Nat × Deed)

namespace LookupHistory

/-- Let an event happen, if it can. -/
def next (h : LookupHistory) (e : LookupEvent) : LookupHistory :=
  match h.now.step e with
  | some (s, out) => ⟨s, h.log ++ out⟩
  | none => h

end LookupHistory

/-- What comes of events that happen one after another to lookups of a list that has not been
fetched yet. -/
def Retryer.lookups (r : Retryer) (events : List LookupEvent) : LookupHistory :=
  events.foldl LookupHistory.next ⟨⟨⟨r, []⟩, .empty⟩, []⟩

section

variable (log log' : List (Nat × Deed)) (n m : Nat) (deeds : List Deed)

@[simp] theorem deedsOf_append : deedsOf (log ++ log') n = deedsOf log n ++ deedsOf log' n :=
  List.filterMap_append

@[simp] theorem givenIn_append : givenIn (log ++ log') = givenIn log ++ givenIn log' :=
  List.filterMap_append

@[simp] theorem storedIn_append : storedIn (log ++ log') = storedIn log ++ storedIn log' :=
  List.filterMap_append

theorem givenIn_received (x : Exchange) : givenIn [(n, .received x)] =
    (AbortList.read x).toOption.toList.map fun names => (n, names) := by
  cases read : AbortList.read x <;> simp [givenIn, read, Except.toOption]

@[simp] theorem deedsOf_own : deedsOf (deeds.map fun deed => (n, deed)) n = deeds := by
  have own : (fun entry : Nat × Deed => if entry.1 = n then some entry.2 else none) ∘
      (fun deed => (n, deed)) = some := by
    funext deed
    exact if_pos rfl
  unfold deedsOf
  rw [List.filterMap_map, own, List.filterMap_some]

theorem deedsOf_other (other : n ≠ m) : deedsOf (deeds.map fun deed => (n, deed)) m = [] := by
  simp [deedsOf, other]

@[simp] theorem newest_append (lists : List (Nat × List String)) (last : Nat × List String) :
    newest (lists ++ [last]) = last.2 := by
  simp [newest]

end

theorem mem_deedsOf {log : List (Nat × Deed)} {n : Nat} {deed : Deed} :
    deed ∈ deedsOf log n ↔ (n, deed) ∈ log := by
  simp [deedsOf]

theorem mem_storedIn {log : List (Nat × Deed)} {n : Nat} {names : List String} :
    (n, names) ∈ storedIn log ↔ (n, .stored names) ∈ log := by
  unfold storedIn
  rw [List.mem_filterMap]
  constructor
  · rintro ⟨⟨m, deed⟩, mem, eq⟩
    cases deed with
    | stored given =>
      cases eq
      exact mem
    | looked | received => cases eq
  · intro mem
    exact ⟨_, mem, rfl⟩

theorem mem_givenIn {log : List (Nat × Deed)} {n : Nat} {names : List String} :
    (n, names) ∈ givenIn log ↔ ∃ x, (n, .received x) ∈ log ∧ AbortList.read x = .ok names := by
  unfold givenIn
  rw [List.mem_filterMap]
  constructor
  · rintro ⟨⟨m, deed⟩, mem, eq⟩
    cases deed with
    | received x =>
      dsimp only at eq
      cases read : AbortList.read x with
      | error e => simp [read, Except.toOption] at eq
      | ok given =>
        simp only [read, Except.toOption, Option.map_some, Option.some.injEq, Prod.mk.injEq] at eq
        obtain ⟨rfl, rfl⟩ := eq
        exact ⟨x, mem, read⟩
    | looked | stored => cases eq
  · rintro ⟨x, mem, read⟩
    exact ⟨_, mem, by simp [read, Except.toOption]⟩

namespace LookupHistory

theorem lookups_snoc (r : Retryer) (events : List LookupEvent) (e : LookupEvent) :
    r.lookups (events ++ [e]) = (r.lookups events).next e := by
  rw [Retryer.lookups, List.foldl_append]
  rfl

/-- **Induction over histories of lookups.** -/
theorem induct {P : LookupHistory → Prop} {r : Retryer} (start : P (r.lookups []))
    (next : ∀ (h : LookupHistory) (s' : Lookups) (out : List (Nat × Deed)), P h →
      h.now.Step s' out → P ⟨s', h.log ++ out⟩)
    (events : List LookupEvent) : P (r.lookups events) := by
  induction events using List.reverseRecOn with
  | nil => exact start
  | append_singleton events e ih =>
    rw [lookups_snoc, LookupHistory.next]
    split
    · next s' out happens => exact next _ s' out ih (Lookups.step_of_eq happens)
    · exact ih

end LookupHistory

/-! ## The course of a lookup -/

namespace AbortList

theorem read_refused {status : Nat} {body : Text.Bytes}
    (refused : status ≠ 200 ∨ names? body = none) :
    ∃ e, read (.answered status body) = .error e ∧ e.kind = .permanent := by
  by_cases ok : status = 200
  · have none := refused.resolve_left fun other => other ok
    exact ⟨.undecodable undecodable, by simp [read, ok, none], rfl⟩
  · exact ⟨.unexpectedStatus status, if_neg ok, rfl⟩

/-- What a request comes to: a list, no answer, or an answer that is no list. -/
theorem read_cases (x : Exchange) :
    (∃ names, read x = .ok names) ∨ (x.isCut = true ∧ ∃ e, read x = .error e) ∨
      ∃ e, read x = .error e ∧ e.kind = .permanent := by
  cases x with
  | unreachable reason => exact .inr (.inl ⟨rfl, _, rfl⟩)
  | lost reason => exact .inr (.inl ⟨rfl, _, rfl⟩)
  | answered status body =>
    by_cases refused : status ≠ 200 ∨ names? body = none
    · exact .inr (.inr (read_refused refused))
    · simp only [not_or, not_not] at refused
      cases names : names? body with
      | some names' => exact .inl ⟨names', by simp [read, refused.1, names]⟩
      | none => exact absurd names refused.2

/-- What a lookup makes of what came of a request. -/
inductive Answered (l : AbortList) (i : Nat) (x : Exchange) : Lookup → Prop where
  | given {names : List String} (gives : read x = .ok names) : Answered l i x (.storing names)
  | again {d : Span} (cut : x.isCut = true) (more : i < l.retryer.limit) :
      Answered l i x (.resting (i + 1) d)
  | broken {why : SpanFault} (cut : x.isCut = true) : Answered l i x (.broken why)
  | failed {e : AbortListError} (fails : read x = .error e) : Answered l i x (.failed e)

theorem answered (l : AbortList) {i : Nat} (within : i ≤ l.retryer.limit) (x : Exchange)
    (chance : Chance) : l.Answered i x (l.answer i x chance) := by
  unfold answer
  rcases read_cases x with ⟨names, gives⟩ | ⟨cut, e, fails⟩ | ⟨e, fails, permanent⟩
  · rw [gives]
    exact .given gives
  · rw [fails]
    dsimp only
    cases verdict : l.retryer.verdict i e.kind chance with
    | giveUp => exact .failed fails
    | fault why => exact .broken cut
    | retryAfter d =>
      refine .again cut (Nat.lt_of_le_of_ne within ?_)
      rintro rfl
      rw [l.retryer.verdict_limit] at verdict
      cases verdict
  · rw [fails]
    dsimp only
    rw [permanent]
    exact .failed fails

end AbortList

/-- Where a lookup is that has done some deeds. -/
inductive LookupCourse (r : Retryer) (checkId : String) : Lookup → List Deed → Prop where
  | checking : LookupCourse r checkId .checking []
  | listed {names : List String} (mem : checkId ∈ names) :
      LookupCourse r checkId (.found true) [.looked names]
  | requesting {names : List String} {cuts : List Exchange} (absent : checkId ∉ names)
      (cut : ∀ x ∈ cuts, x.isCut = true) (within : cuts.length ≤ r.limit) :
      LookupCourse r checkId (.requesting cuts.length) (.looked names :: cuts.map .received)
  | resting {names : List String} {cuts : List Exchange} {d : Span} (absent : checkId ∉ names)
      (cut : ∀ x ∈ cuts, x.isCut = true) (within : cuts.length ≤ r.limit) :
      LookupCourse r checkId (.resting cuts.length d) (.looked names :: cuts.map .received)
  | storing {names given : List String} {cuts : List Exchange} {x : Exchange}
      (absent : checkId ∉ names) (cut : ∀ x ∈ cuts, x.isCut = true)
      (within : cuts.length ≤ r.limit) (gives : AbortList.read x = .ok given) :
      LookupCourse r checkId (.storing given) (.looked names :: (cuts ++ [x]).map .received)
  | answered {names given : List String} {cuts : List Exchange} {x : Exchange}
      (absent : checkId ∉ names) (cut : ∀ x ∈ cuts, x.isCut = true)
      (within : cuts.length ≤ r.limit) (gives : AbortList.read x = .ok given) :
      LookupCourse r checkId (.found (decide (checkId ∈ given)))
        (.looked names :: (cuts ++ [x]).map .received ++ [.stored given])
  | failed {names : List String} {cuts : List Exchange} {x : Exchange} {e : AbortListError}
      (absent : checkId ∉ names) (cut : ∀ x ∈ cuts, x.isCut = true)
      (within : cuts.length ≤ r.limit) (fails : AbortList.read x = .error e) :
      LookupCourse r checkId (.failed e) (.looked names :: (cuts ++ [x]).map .received)
  | broken {names : List String} {cuts : List Exchange} {why : SpanFault}
      (absent : checkId ∉ names) (cut : ∀ x ∈ cuts, x.isCut = true)
      (within : cuts.length ≤ r.limit + 1) :
      LookupCourse r checkId (.broken why) (.looked names :: cuts.map .received)

namespace LookupCourse

variable {r : Retryer} {checkId : String} {l l' : Lookup} {deeds new : List Deed}
  {list list' : AbortList}

/-- **What a lookup does keeps it on its course.** -/
theorem go (course : LookupCourse r checkId l deeds)
    (goes : Lookups.Goes list checkId l new l' list') (same : list.retryer = r) :
    LookupCourse r checkId l' (deeds ++ new) := by
  cases goes with
  | look =>
    cases course with
    | checking =>
      unfold AbortList.check
      by_cases mem : checkId ∈ list.ids
      · rw [if_pos mem]
        exact .listed mem
      · rw [if_neg mem]
        exact @LookupCourse.requesting r checkId list.ids [] mem (by simp) (Nat.zero_le _)
  | @answer i x chance =>
    subst same
    cases course with
    | @requesting names cuts absent cut within =>
      have all : Deed.looked names :: cuts.map .received ++ [.received x] =
          .looked names :: (cuts ++ [x]).map .received := by simp
      rw [all]
      have cut' (isCut : x.isCut = true) : ∀ y ∈ cuts ++ [x], y.isCut = true := by
        intro y mem
        rcases List.mem_append.mp mem with mem | mem
        · exact cut y mem
        · obtain rfl := List.mem_singleton.mp mem
          exact isCut
      have longer : (cuts ++ [x]).length = cuts.length + 1 := by simp
      have answered := list.answered within x chance
      generalize list.answer cuts.length x chance = l' at answered ⊢
      cases answered with
      | given gives => exact .storing absent cut within gives
      | again isCut more =>
        rw [← longer]
        exact .resting absent (cut' isCut) (longer ▸ more)
      | broken isCut => exact .broken absent (cut' isCut) (by omega)
      | failed fails => exact .failed absent cut within fails
  | rest =>
    cases course with
    | resting absent cut within =>
      rw [List.append_nil]
      exact .requesting absent cut within
  | store =>
    cases course with
    | storing absent cut within gives => exact .answered absent cut within gives

end LookupCourse

/-! ## What holds of every history -/

namespace Lookups.Goes

variable {list list' : AbortList} {checkId : String} {l l' : Lookup} {deeds : List Deed}

theorem retryer (goes : Goes list checkId l deeds l' list') : list'.retryer = list.retryer := by
  cases goes <;> rfl

theorem ids (goes : Goes list checkId l deeds l' list') (n : Nat) :
    storedIn (deeds.map fun deed => (n, deed)) = [] ∧ list'.ids = list.ids ∨
      ∃ names, deeds = [.stored names] ∧ list'.ids = names := by
  cases goes with
  | store => exact .inr ⟨_, rfl, rfl⟩
  | _ => exact .inl ⟨rfl, rfl⟩

end Lookups.Goes

namespace LookupHistory

/-- Everybody is where the log says, and the list is the one that was stored last. -/
structure Sound (h : LookupHistory) (r : Retryer) : Prop where
  retryer : h.now.list.retryer = r
  ids : h.now.list.ids = newest (storedIn h.log)
  course : ∀ n checkId l, h.now.askers.get? n = some ⟨checkId, l⟩ →
    LookupCourse r checkId l (deedsOf h.log n)
  fresh : ∀ n, h.now.askers.get? n = none → deedsOf h.log n = []

variable {h : LookupHistory} {r : Retryer} {s' : Lookups} {out : List (Nat × Deed)}

/-- **Every step keeps the account.** -/
theorem Sound.step (sound : h.Sound r) (step : h.now.Step s' out) :
    Sound ⟨s', h.log ++ out⟩ r := by
  cases step with
  | @begin n checkId fresh =>
    rw [List.append_nil]
    refine ⟨sound.retryer, sound.ids, ?_, ?_⟩
    · intro m id l known
      dsimp only at known
      rw [Table.get?_set] at known
      split at known
      · next same =>
        subst same
        cases known
        rw [sound.fresh m fresh]
        exact .checking
      · exact sound.course m id l known
    · intro m unknown
      dsimp only at unknown
      rw [Table.get?_set] at unknown
      split at unknown
      · cases unknown
      · exact sound.fresh m unknown
  | @go n checkId l l' list' deeds known goes =>
    refine ⟨goes.retryer.trans sound.retryer, ?_, ?_, ?_⟩
    · dsimp only
      rcases goes.ids n with ⟨nothing, same⟩ | ⟨names, rfl, now⟩
      · rw [storedIn_append, nothing, List.append_nil, same]
        exact sound.ids
      · rw [storedIn_append, now]
        exact (newest_append _ (n, names)).symm
    · intro m id l'' known'
      dsimp only at known'
      rw [Table.get?_set] at known'
      rw [deedsOf_append]
      split at known'
      · next same =>
        subst same
        cases known'
        rw [deedsOf_own]
        exact (sound.course m checkId l known).go goes sound.retryer
      · next other =>
        rw [deedsOf_other n m deeds (Ne.symm other), List.append_nil]
        exact sound.course m id l'' known'
    · intro m unknown
      dsimp only at unknown
      rw [Table.get?_set] at unknown
      split at unknown
      · cases unknown
      · next other =>
        rw [deedsOf_append, deedsOf_other n m deeds (Ne.symm other), List.append_nil]
        exact sound.fresh m unknown

theorem sound (r : Retryer) (events : List LookupEvent) : (r.lookups events).Sound r := by
  refine induct (P := fun h => h.Sound r) ?_ ?_ events
  · exact ⟨rfl, rfl, by simp [Retryer.lookups], fun _ _ => rfl⟩
  · intro h s' out sound step
    exact sound.step step

end LookupHistory

/-! ## Lookups that follow each other -/

/-- The list that lookup number `n` is about to store. -/
def Lookup.pending (n : Nat) : Lookup → List (Nat × List String)
  | .storing names => [(n, names)]
  | _ => []

theorem Lookup.pending_of_isOver {l : Lookup} (ended : l.isOver = true) (n : Nat) :
    l.pending n = [] := by
  cases l <;> first | rfl | cases ended

theorem AbortList.pending_answer (l : AbortList) (i : Nat) (x : Exchange) (chance : Chance)
    (n : Nat) :
    (l.answer i x chance).pending n = (read x).toOption.toList.map fun names => (n, names) := by
  unfold answer
  cases read x with
  | ok names => rfl
  | error e =>
    dsimp only
    cases l.retryer.verdict i e.kind chance <;> rfl

namespace Lookups

/-- Somebody has not come to the end of a lookup. -/
def InProgress (s : Lookups) (n : Nat) : Prop :=
  ∃ checkId l, s.askers.get? n = some ⟨checkId, l⟩ ∧ l.isOver = false

/-- Somebody is about to store a list. -/
def Stores (s : Lookups) (n : Nat) (names : List String) : Prop :=
  ∃ checkId, s.askers.get? n = some ⟨checkId, .storing names⟩

/-- At most one lookup is going on. -/
def Alone (s : Lookups) : Prop := ∀ n m, s.InProgress n → s.InProgress m → n = m

variable {list list' : AbortList} {checkId : String} {l l' : Lookup} {deeds : List Deed}

theorem Goes.pending (goes : Goes list checkId l deeds l' list') (n : Nat) :
    l.pending n ++ givenIn (deeds.map fun deed => (n, deed)) =
      storedIn (deeds.map fun deed => (n, deed)) ++ l'.pending n := by
  cases goes with
  | look =>
    unfold AbortList.check
    split <;> rfl
  | answer =>
    rw [AbortList.pending_answer]
    exact givenIn_received n _
  | rest | store => rfl

theorem Goes.isOver (goes : Goes list checkId l deeds l' list') : l.isOver = false := by
  cases goes <;> rfl

theorem inProgress_set {s : Lookups} {n m : Nat} (other : m ≠ n) :
    InProgress ⟨list', s.askers.set n ⟨checkId, l'⟩⟩ m ↔ s.InProgress m := by
  simp [InProgress, Table.get?_set, other]

end Lookups

namespace LookupHistory

/-- All that was given has been stored, but for what the one who looks up a check is about to
store. -/
structure Current (h : LookupHistory) : Prop where
  idle : (∀ n, ¬ h.now.InProgress n) → givenIn h.log = storedIn h.log
  busy : ∀ n checkId l, h.now.askers.get? n = some ⟨checkId, l⟩ → l.isOver = false →
    givenIn h.log = storedIn h.log ++ l.pending n

variable {h : LookupHistory} {s' : Lookups} {out : List (Nat × Deed)}

/-- **Lookups that follow each other** keep the list current. -/
theorem Current.step (current : h.Current) (step : h.now.Step s' out) (before : h.now.Alone)
    (after : s'.Alone) : Current ⟨s', h.log ++ out⟩ := by
  cases step with
  | @begin n checkId fresh =>
    have begins : Lookups.InProgress ⟨h.now.list, h.now.askers.set n ⟨checkId, .checking⟩⟩ n :=
      ⟨checkId, .checking, by simp [Table.get?_set], rfl⟩
    have nobody (m : Nat) : ¬ h.now.InProgress m := by
      intro progress
      by_cases same : m = n
      · obtain ⟨id, l, known, -⟩ := progress
        rw [same, fresh] at known
        cases known
      · exact same (after m n ((Lookups.inProgress_set same).mpr progress) begins)
    rw [List.append_nil]
    refine ⟨fun _ => current.idle nobody, ?_⟩
    intro m id l known going
    obtain rfl : m = n := after m n ⟨id, l, known, going⟩ begins
    simp only [Table.get?_set, if_true, Option.some.injEq, Asker.mk.injEq] at known
    rw [← known.2]
    simpa [Lookup.pending] using current.idle nobody
  | @go n checkId l l' list' deeds known goes =>
    have goesOn : h.now.InProgress n := ⟨checkId, l, known, goes.isOver⟩
    have pending : givenIn (h.log ++ deeds.map fun deed => (n, deed)) =
        storedIn (h.log ++ deeds.map fun deed => (n, deed)) ++ l'.pending n := by
      rw [givenIn_append, storedIn_append, current.busy n checkId l known goes.isOver,
        List.append_assoc, goes.pending n, List.append_assoc]
    constructor
    · intro nobody
      have ended : l'.isOver = true := by
        cases ended : l'.isOver with
        | true => rfl
        | false => exact absurd ⟨checkId, l', by simp [Table.get?_set], ended⟩ (nobody n)
      rw [pending, Lookup.pending_of_isOver ended, List.append_nil]
    · intro m id l'' known' going
      by_cases same : m = n
      · subst same
        simp only [Table.get?_set, if_true, Option.some.injEq, Asker.mk.injEq] at known'
        rw [← known'.2]
        exact pending
      · have progress := (Lookups.inProgress_set same).mp ⟨id, l'', known', going⟩
        exact absurd (before m n progress goesOn) same

/-- Whenever an event happens, at most one lookup is going on. -/
def Apart (r : Retryer) (events : List LookupEvent) : Prop :=
  ∀ earlier, earlier <+: events → (r.lookups earlier).now.Alone

theorem current {r : Retryer} {events : List LookupEvent} (apart : Apart r events) :
    (r.lookups events).Current := by
  induction events using List.reverseRecOn with
  | nil => exact ⟨fun _ => rfl, by simp [Retryer.lookups]⟩
  | append_singleton events e ih =>
    have current := ih fun earlier pre => apart earlier (pre.trans (List.prefix_append ..))
    have before := apart events (List.prefix_append ..)
    have after := apart _ (List.prefix_refl _)
    rw [lookups_snoc, LookupHistory.next] at after ⊢
    split at after
    · next s' out happens => exact current.step (Lookups.step_of_eq happens) before after
    · exact current

end LookupHistory

/-! ## The result -/

/-- What came of the requests of a lookup that has done some deeds. -/
def receivedIn (deeds : List Deed) : List Exchange :=
  deeds.filterMap fun deed =>
    match deed with
    | .received x => some x
    | _ => none

/-- The number of requests of a lookup that has done some deeds. -/
def Lookup.requests (l : Lookup) (deeds : List Deed) : Nat :=
  match l with
  | .requesting _ => (receivedIn deeds).length + 1
  | _ => (receivedIn deeds).length

/-- What may be relied on by whoever looks up a check and has done some deeds. -/
structure Lookup.Faithful (l : Lookup) (r : Retryer) (checkId : String) (deeds : List Deed) :
    Prop where
  /-- A lookup without a request finds its check just if that was listed when it looked. -/
  listed : (∃ names, .looked names ∈ deeds ∧ checkId ∈ names) ↔
    l = .found true ∧ l.requests deeds = 0
  /-- Every other answer is by the list that the lookup was given itself, after it had looked. -/
  own : ∀ found, l = .found found → l.requests deeds ≠ 0 → ∃ names cuts x given,
    deeds = .looked names :: (cuts ++ [x]).map .received ++ [.stored given] ∧
      AbortList.read x = .ok given ∧ found = decide (checkId ∈ given)
  /-- Whoever has changed the list has an answer. -/
  untouched : ∀ names, .stored names ∈ deeds → ∃ found, l = .found found
  /-- All requests but the last came to nothing. -/
  again : ∀ x ∈ (receivedIn deeds).take (l.requests deeds - 1), x.isCut = true
  bounded : l.requests deeds ≤ min r.ceiling r.policy.maxRetries + 1
  /-- An answer that is no list ends the lookup. -/
  refused : ∀ status body, .received (.answered status body) ∈ deeds →
    status ≠ 200 ∨ AbortList.names? body = none → ∃ e, l = .failed e ∧
      AbortList.read (.answered status body) = .error e ∧ e.kind = .permanent

@[simp] theorem receivedIn_nil : receivedIn [] = [] := rfl

@[simp] theorem receivedIn_looked (names : List String) (deeds : List Deed) :
    receivedIn (.looked names :: deeds) = receivedIn deeds := rfl

@[simp] theorem receivedIn_received (x : Exchange) (deeds : List Deed) :
    receivedIn (.received x :: deeds) = x :: receivedIn deeds := rfl

@[simp] theorem receivedIn_stored (names : List String) (deeds : List Deed) :
    receivedIn (.stored names :: deeds) = receivedIn deeds := rfl

@[simp] theorem receivedIn_append (deeds deeds' : List Deed) :
    receivedIn (deeds ++ deeds') = receivedIn deeds ++ receivedIn deeds' :=
  List.filterMap_append

@[simp] theorem receivedIn_map (xs : List Exchange) : receivedIn (xs.map .received) = xs := by
  induction xs with
  | nil => rfl
  | cons x rest ih => exact congrArg (x :: ·) ih

namespace LookupCourse

variable {r : Retryer} {checkId : String} {l : Lookup} {deeds : List Deed}

theorem listed_iff (course : LookupCourse r checkId l deeds) :
    (∃ names, .looked names ∈ deeds ∧ checkId ∈ names) ↔
      l = .found true ∧ l.requests deeds = 0 := by
  cases course with
  | checking => simp
  | listed mem => simp [mem, Lookup.requests]
  | requesting absent | resting absent | storing absent | answered absent | failed absent
  | broken absent => simp [absent, Lookup.requests]

theorem own_answer (course : LookupCourse r checkId l deeds) (found : Bool) (is : l = .found found)
    (asked : l.requests deeds ≠ 0) : ∃ names cuts x given,
      deeds = .looked names :: (cuts ++ [x]).map .received ++ [.stored given] ∧
        AbortList.read x = .ok given ∧ found = decide (checkId ∈ given) := by
  cases course with
  | listed mem => simp [Lookup.requests] at asked
  | answered absent cut within gives =>
    cases is
    exact ⟨_, _, _, _, rfl, gives, rfl⟩
  | _ => cases is

theorem found_of_stored (course : LookupCourse r checkId l deeds) (names : List String)
    (stored : .stored names ∈ deeds) : ∃ found, l = .found found := by
  cases course with
  | listed | answered => exact ⟨_, rfl⟩
  | _ => simp at stored

theorem given_of_storing (course : LookupCourse r checkId l deeds) {names : List String}
    (is : l = .storing names) : ∃ x, .received x ∈ deeds ∧ AbortList.read x = .ok names := by
  cases course with
  | @storing _ given cuts x absent cut within gives =>
    cases is
    exact ⟨x, by simp, gives⟩
  | _ => cases is

theorem given_of_stored (course : LookupCourse r checkId l deeds) {names : List String}
    (stored : .stored names ∈ deeds) :
    ∃ x, .received x ∈ deeds ∧ AbortList.read x = .ok names := by
  cases course with
  | @answered _ given cuts x absent cut within gives =>
    obtain rfl : names = given := by simpa using stored
    exact ⟨x, by simp, gives⟩
  | _ => simp at stored

theorem cut_of_repeated (course : LookupCourse r checkId l deeds) (x : Exchange)
    (repeated : x ∈ (receivedIn deeds).take (l.requests deeds - 1)) : x.isCut = true := by
  cases course with
  | checking | listed => simp at repeated
  | requesting absent cut | resting absent cut | broken absent cut =>
    exact cut x (by simpa using List.mem_of_mem_take repeated)
  | storing absent cut | answered absent cut | failed absent cut =>
    exact cut x (by simpa [Lookup.requests] using repeated)

theorem requests_le (course : LookupCourse r checkId l deeds) :
    l.requests deeds ≤ min r.ceiling r.policy.maxRetries + 1 := by
  cases course with
  | checking | listed => simp [Lookup.requests]
  | resting absent cut within =>
    refine Nat.le_succ_of_le ?_
    simpa [Lookup.requests, Retryer.limit] using within
  | requesting absent cut within | storing absent cut within | answered absent cut within
  | failed absent cut within | broken absent cut within =>
    simpa [Lookup.requests, Retryer.limit] using within

theorem permanent_of_refused (course : LookupCourse r checkId l deeds) (status : Nat)
    (body : Text.Bytes) (answered : .received (.answered status body) ∈ deeds)
    (refused : status ≠ 200 ∨ AbortList.names? body = none) :
    ∃ e, l = .failed e ∧ AbortList.read (.answered status body) = .error e ∧
      e.kind = .permanent := by
  obtain ⟨e, fails, permanent⟩ := AbortList.read_refused refused
  have uncut {cuts : List Exchange} (cut : ∀ x ∈ cuts, x.isCut = true) :
      .answered status body ∉ cuts := fun mem => nomatch cut _ mem
  cases course with
  | checking => cases answered
  | listed => simp at answered
  | requesting absent cut | resting absent cut | broken absent cut =>
    simp [uncut cut] at answered
  | storing absent cut within gives | answered absent cut within gives =>
    simp [uncut cut] at answered
    rw [← answered, fails] at gives
    cases gives
  | failed absent cut within fails' =>
    simp [uncut cut] at answered
    rw [← answered, fails] at fails'
    cases fails'
    exact ⟨e, rfl, fails, permanent⟩

/-- **A course is faithful.** -/
theorem faithful (course : LookupCourse r checkId l deeds) : l.Faithful r checkId deeds where
  listed := course.listed_iff
  own := course.own_answer
  untouched := course.found_of_stored
  again := course.cut_of_repeated
  bounded := course.requests_le
  refused := course.permanent_of_refused

end LookupCourse

namespace LookupHistory

variable {h : LookupHistory} {r : Retryer}

theorem Sound.given_of_stored (sound : h.Sound r) {entry : Nat × List String}
    (stored : entry ∈ storedIn h.log) : entry ∈ givenIn h.log := by
  obtain ⟨n, names⟩ := entry
  have done := mem_deedsOf.mpr (mem_storedIn.mp stored)
  refine mem_givenIn.mpr ?_
  cases known : h.now.askers.get? n with
  | none =>
    rw [sound.fresh n known] at done
    cases done
  | some asker =>
    obtain ⟨x, received, read⟩ := (sound.course n _ _ known).given_of_stored done
    exact ⟨x, mem_deedsOf.mp received, read⟩

theorem Sound.list_cases (sound : h.Sound r) : h.now.list.ids = [] ∧ storedIn h.log = [] ∨
    ∃ n x, (n, .received x) ∈ h.log ∧ AbortList.read x = .ok h.now.list.ids := by
  have ids := sound.ids
  rcases List.eq_nil_or_concat (storedIn h.log) with none | ⟨earlier, last, all⟩
  · rw [none] at ids
    exact .inl ⟨ids, none⟩
  · rw [List.concat_eq_append] at all
    rw [all, newest_append] at ids
    rw [ids]
    exact .inr ⟨last.1, mem_givenIn.mp (sound.given_of_stored (by simp [all]))⟩

/-- The list is the newest one, or the one before it while the newest one is about to be stored. -/
theorem Current.list_cases (current : h.Current) (sound : h.Sound r) :
    (∀ n names, ¬ h.now.Stores n names) ∧ h.now.list.ids = newest (givenIn h.log) ∨
      ∃ n names before, h.now.Stores n names ∧ givenIn h.log = before ++ [(n, names)] ∧
        h.now.list.ids = newest before := by
  by_cases nobody : ∀ n names, ¬ h.now.Stores n names
  · refine .inl ⟨nobody, ?_⟩
    have all : givenIn h.log = storedIn h.log := by
      by_cases idle : ∀ n, ¬ h.now.InProgress n
      · exact current.idle idle
      · obtain ⟨n, progress⟩ := not_forall.mp idle
        obtain ⟨checkId, l, known, going⟩ := not_not.mp progress
        rw [current.busy n checkId l known going]
        cases l with
        | storing names => exact absurd ⟨checkId, known⟩ (nobody n names)
        | _ => exact List.append_nil _
    rw [all]
    exact sound.ids
  · obtain ⟨n, some⟩ := not_forall.mp nobody
    obtain ⟨names, stores⟩ := not_forall.mp some
    obtain ⟨checkId, known⟩ := not_not.mp stores
    exact .inr ⟨n, names, _, ⟨checkId, known⟩, current.busy n checkId _ known rfl, sound.ids⟩

/-- **Lookups that go on at the same time.** The list is empty or was given to somebody, everybody
answers for itself, and only storing changes the list. While lookups follow each other, the list is
the newest one that was given but for the one that is about to be stored. -/
theorem lookups_answer_their_own (r : Retryer) (events : List LookupEvent) :
    ((r.lookups events).now.list.ids = [] ∧ storedIn (r.lookups events).log = [] ∨
      ∃ n x, (n, .received x) ∈ (r.lookups events).log ∧
        AbortList.read x = .ok (r.lookups events).now.list.ids) ∧
    (∀ n checkId l, (r.lookups events).now.askers.get? n = some ⟨checkId, l⟩ →
      l.Faithful r checkId (deedsOf (r.lookups events).log n)) ∧
    (∀ e s' out, (r.lookups events).now.step e = some (s', out) →
      s'.list = (r.lookups events).now.list ∨ ∃ n, out = [(n, .stored s'.list.ids)]) ∧
    (Apart r events →
      (∀ n names, ¬ (r.lookups events).now.Stores n names) ∧
          (r.lookups events).now.list.ids = newest (givenIn (r.lookups events).log) ∨
        ∃ n names before, (r.lookups events).now.Stores n names ∧
          givenIn (r.lookups events).log = before ++ [(n, names)] ∧
          (r.lookups events).now.list.ids = newest before) := by
  have sound := sound r events
  refine ⟨sound.list_cases, ?_, ?_, ?_⟩
  · intro n checkId l known
    exact (sound.course n checkId l known).faithful
  · intro e s' out happens
    cases Lookups.step_of_eq happens with
    | begin => exact .inl rfl
    | @go n _ _ _ _ _ _ goes =>
      cases goes with
      | store => exact .inr ⟨n, rfl⟩
      | look | answer | rest => exact .inl rfl
  · intro apart
    exact (current apart).list_cases sound

end LookupHistory

end CheckAgent
