import Mathlib.Order.Lattice.Nat
import CheckAgent.Proofs.Retry.Course

/-!
# The timetable of a retried operation

Without a deadline, four things can end an operation: an attempt that is not to be repeated, the
ceiling of the retryer, the end of the policy's delays, and a cancellation. **The last attempt** is
the first one behind which one of them holds (`IsLast`). Up to it the operation keeps to a
`Timetable`: an attempt begins when the delay behind the one before it is over, and none is ever cut
short.

**Two counters** run along, one for the retries and one for the delays that were handed out, each a
number of 32 bits. `countFrom` follows an operation by them. They go in step and stay at or below
the ceiling, so that neither overflows (`countFrom_eq`).

**Main result** (`keeps_timetable`). Every operation keeps to its timetable and ends with the
outcome of its last attempt, at the end of that attempt or, if a cancellation cuts the wait behind
it short, at the cancellation.
-/

namespace CheckAgent

open CheckAgent.Number

/-- The `n`-th delay, moved by an offset. -/
def Policy.drawn (p : Policy) (n : Nat) (offset : Option Binary) : Except SpanFault Span :=
  match p.baseDelay n with
  | .ok d => p.move d offset
  | .error why => .error why

/-- When the attempts of an operation begin and end if each of them is repeated. -/
structure Timetable where
  start : Nat
  /-- How long attempt `i` takes. -/
  takes : Nat → Nat
  /-- How long the wait behind attempt `i` is. -/
  pause : Nat → Nat

namespace Timetable

variable (p : Timetable)

/-- When attempt `i` begins. -/
def begins : Nat → Nat
  | 0 => p.start
  | i + 1 => begins i + p.takes i + p.pause i

/-- When attempt `i` ends. -/
def ends (i : Nat) : Nat := p.begins i + p.takes i

/-- When the wait behind attempt `i` is over. -/
def resumes (i : Nat) : Nat := p.ends i + p.pause i

end Timetable

variable {ε α : Type}

/-- The ending of an operation whose last attempt had an outcome. -/
def Ending.of : Except ε α → Ending ε α
  | .ok a => .done a
  | .error e => .failed e

namespace Retryer

/-! ## Courses that keep to a timetable -/

section

variable (r : Retryer) (kind : ε → FailureKind) (attempt : Nat → Nat × Except ε α)
  (cancelAt : Option Nat) (p : Timetable)

/-- An attempt is not to be repeated: it succeeds, or fails for good. -/
def Settles (i : Nat) : Prop :=
  match (attempt i).2 with
  | .ok _ => True
  | .error e => kind e = .permanent

/-- No retry follows attempt `i`, whether the operation is cancelled or not. -/
def Exhausts (i : Nat) : Prop :=
  Settles kind attempt i ∨ i = r.ceiling ∨ i = r.policy.maxRetries

instance (i : Nat) : Decidable (Settles kind attempt i) :=
  match h : (attempt i).2 with
  | .ok _ => isTrue (by simp [Settles, h])
  | .error e => decidable_of_iff (kind e = .permanent) (by simp [Settles, h])

instance (i : Nat) : Decidable (r.Exhausts kind attempt i) := by
  unfold Exhausts
  infer_instance

/-- The operation is cancelled before the wait behind attempt `i` is over. -/
def Cuts (i : Nat) : Prop := ∃ t, cancelAt = some t ∧ t < p.resumes i

/-- Attempt `m` is the first one behind which there is no retry. -/
def IsLast (m : Nat) : Prop :=
  IsLeast {i | r.Exhausts kind attempt i ∨ Cuts cancelAt p i} m

/-- A course keeps to a timetable, its last attempt being number `m`. -/
structure KeepsTo (m : Nat) (c : Course ε α) : Prop where
  last : r.IsLast kind attempt cancelAt p m
  /-- There are the attempts `0` to `m`, each at its time. -/
  starts : c.starts = (List.range (m + 1)).map p.begins
  ending : c.ending = .of (attempt m).2
  atOnce : r.Exhausts kind attempt m → c.ended = p.ends m
  /-- Otherwise a cancellation ends the wait behind the last attempt, or has come before it. -/
  cut : ¬ r.Exhausts kind attempt m → ∃ t, cancelAt = some t ∧ c.ended = max (p.ends m) t
  bounded : c.starts.length ≤ min r.ceiling r.policy.maxRetries + 1

end

variable {r : Retryer} {clock : Span → Nat} {kind : ε → FailureKind}
  {attempt : Nat → Nat × Except ε α} {chance : Nat → Chance} {cancelAt : Option Nat}
  {fuel i t : Nat} {e : ε} {d : Span}

theorem transient_of_not_exhausts (open_ : ¬ r.Exhausts kind attempt i) :
    ∃ e, (attempt i).2 = .error e ∧ kind e = .transient := by
  cases outcome : (attempt i).2 with
  | ok a =>
    refine absurd (.inl ?_) open_
    simp [Settles, outcome]
  | error e =>
    refine ⟨e, rfl, ?_⟩
    cases h : kind e with
    | transient => rfl
    | permanent =>
      refine absurd (.inl ?_) open_
      simp [Settles, outcome, h]

theorem Exhausts.verdict (spent : r.Exhausts kind attempt i) (fails : (attempt i).2 = .error e)
    (chance : Chance) : r.verdict i (kind e) chance = .giveUp := by
  cases h : kind e with
  | permanent => rfl
  | transient =>
    rcases spent with settles | ceiling | delays
    · simp [Settles, fails, h] at settles
    · simp [Retryer.verdict, ceiling]
    · simp [Retryer.verdict, Policy.next, delays]

theorem verdict_transient (endless : r.policy.maxElapsed = none) (within : i < r.limit)
    (chance : Chance) : r.verdict i .transient chance =
      match r.policy.drawn i chance.offset with
      | .ok d => .retryAfter d
      | .error why => .fault why := by
  unfold limit at within
  have below : ¬ i = r.ceiling := by omega
  have handed : ¬ r.policy.maxRetries ≤ i := by omega
  unfold Policy.drawn
  simp only [Retryer.verdict, Policy.next, below, handed, endless, if_false, Option.any_none,
    Bool.false_eq_true]
  cases r.policy.baseDelay i with
  | error why => rfl
  | ok d => rfl

theorem verdict_of_drawn (endless : r.policy.maxElapsed = none) (within : i < r.limit)
    (drawn : r.policy.drawn i (chance i).offset = .ok d) :
    r.verdict i .transient (chance i) = .retryAfter d := by
  rw [verdict_transient endless within, drawn]

/-! ## One attempt -/

/-- An attempt that is not followed by a retry is the last one. -/
theorem runFrom_of_exhausts (spent : r.Exhausts kind attempt i) :
    r.runFrom clock kind attempt chance cancelAt fuel i t =
      ⟨[t], t + (attempt i).1, .of (attempt i).2⟩ := by
  unfold runFrom
  cases outcome : (attempt i).2 with
  | ok a => rfl
  | error e =>
    dsimp only
    rw [spent.verdict outcome]
    rfl

/-- So is one whose operation is cancelled before the wait behind it is over. -/
theorem runFrom_of_cut {c : Nat} (fails : (attempt i).2 = .error e)
    (delay : r.verdict i (kind e) (chance i) = .retryAfter d)
    (cut : c ≤ t + (attempt i).1 + clock d) :
    r.runFrom clock kind attempt chance (some c) fuel i t =
      ⟨[t], max (t + (attempt i).1) c, .failed e⟩ := by
  unfold runFrom
  rw [fails]
  dsimp only
  rw [delay]
  simp [cut]

/-- Behind every other one comes the next. -/
theorem runFrom_of_again {rest : Course ε α} (fails : (attempt i).2 = .error e)
    (delay : r.verdict i (kind e) (chance i) = .retryAfter d)
    (kept : ∀ c, cancelAt = some c → t + (attempt i).1 + clock d < c)
    (next : r.runFrom clock kind attempt chance cancelAt fuel (i + 1)
      (t + (attempt i).1 + clock d) = rest) :
    r.runFrom clock kind attempt chance cancelAt (fuel + 1) i t =
      ⟨t :: rest.starts, rest.ended, rest.ending⟩ := by
  have late : cancelAt.any (· ≤ t + (attempt i).1 + clock d) = false := by
    cases cancelAt with
    | none => rfl
    | some c => simpa using kept c rfl
  rw [runFrom, fails]
  dsimp only
  rw [delay]
  dsimp only
  rw [late, next]
  rfl

/-! ## The whole operation -/

/-- The timetable of an operation with given delays. -/
def timetable (clock : Span → Nat) (attempt : Nat → Nat × Except ε α) (delay : Nat → Span)
    (start : Nat) : Timetable :=
  ⟨start, fun i => (attempt i).1, fun i => clock (delay i)⟩

variable {delay : Nat → Span} {start m : Nat}

theorem exists_isLast (r : Retryer) (kind : ε → FailureKind) (attempt : Nat → Nat × Except ε α)
    (cancelAt : Option Nat) (p : Timetable) : ∃ m, r.IsLast kind attempt cancelAt p m := by
  have stops : {i | r.Exhausts kind attempt i ∨ Cuts cancelAt p i}.Nonempty :=
    ⟨r.ceiling, .inl (.inr (.inl rfl))⟩
  exact ⟨_, Nat.sInf_mem stops, fun _ => Nat.sInf_le⟩

section

variable {p : Timetable} (last : r.IsLast kind attempt cancelAt p m)

include last

theorem IsLast.before (earlier : i < m) :
    ¬ r.Exhausts kind attempt i ∧ ¬ Cuts cancelAt p i := by
  constructor
  · intro spent
    exact Nat.not_lt_of_le (last.2 (.inl spent)) earlier
  · intro cut
    exact Nat.not_lt_of_le (last.2 (.inr cut)) earlier

theorem IsLast.le_limit : m ≤ r.limit := by
  have ceiling : m ≤ r.ceiling := last.2 (.inl (.inr (.inl rfl)))
  have delays : m ≤ r.policy.maxRetries := last.2 (.inl (.inr (.inr rfl)))
  exact Nat.le_min.mpr ⟨ceiling, delays⟩

theorem IsLast.lt_limit (upTo : i ≤ m) (open_ : ¬ r.Exhausts kind attempt i) : i < r.limit := by
  refine Nat.lt_of_le_of_ne (Nat.le_trans upTo last.le_limit) ?_
  intro same
  unfold limit at same
  have : i = r.ceiling ∨ i = r.policy.maxRetries := by omega
  exact open_ (.inr this)

end

/-- When an operation ends whose last attempt is number `m`. -/
def finish (r : Retryer) (kind : ε → FailureKind) (attempt : Nat → Nat × Except ε α)
    (cancelAt : Option Nat) (p : Timetable) (m : Nat) : Nat :=
  if r.Exhausts kind attempt m then p.ends m else max (p.ends m) (cancelAt.getD 0)

/-- **The course of an operation** from an attempt on that comes about. -/
theorem runFrom_eq (endless : r.policy.maxElapsed = none)
    (delays : ∀ i < r.limit, r.policy.drawn i (chance i).offset = .ok (delay i))
    (apart : ∀ c, cancelAt = some c →
      ∀ i < r.limit, c ≠ (timetable clock attempt delay start).resumes i)
    (last : r.IsLast kind attempt cancelAt (timetable clock attempt delay start) m)
    (upTo : i ≤ m) (enough : m ≤ i + fuel) :
    let p := timetable clock attempt delay start
    r.runFrom clock kind attempt chance cancelAt fuel i (p.begins i) =
      ⟨(List.range' i (m + 1 - i)).map p.begins, r.finish kind attempt cancelAt p m,
        .of (attempt m).2⟩ := by
  intro p
  have single : List.range' m (m + 1 - m) = [m] := by
    rw [Nat.add_sub_cancel_left]
    rfl
  have delayed (i : Nat) (upTo : i ≤ m) (open_ : ¬ r.Exhausts kind attempt i) :
      ∃ e, (attempt i).2 = .error e ∧
        r.verdict i (kind e) (chance i) = .retryAfter (delay i) ∧
        ∀ c, cancelAt = some c → c ≠ p.resumes i := by
    obtain ⟨e, fails, transient⟩ := transient_of_not_exhausts open_
    have within := last.lt_limit upTo open_
    refine ⟨e, fails, ?_, fun c cancel => apart c cancel i within⟩
    rw [transient]
    exact verdict_of_drawn endless within (delays i within)
  have final (fuel : Nat) : r.runFrom clock kind attempt chance cancelAt fuel m (p.begins m) =
      ⟨[p.begins m], r.finish kind attempt cancelAt p m, .of (attempt m).2⟩ := by
    unfold finish
    by_cases spent : r.Exhausts kind attempt m
    · rw [if_pos spent]
      exact runFrom_of_exhausts spent
    · obtain ⟨c, cancel, cut⟩ := last.1.resolve_left spent
      obtain ⟨e, fails, delay, -⟩ := delayed m (Nat.le_refl m) spent
      rw [if_neg spent, cancel, fails]
      exact runFrom_of_cut fails delay (Nat.le_of_lt cut)
  induction fuel generalizing i with
  | zero =>
    obtain rfl : i = m := Nat.le_antisymm upTo enough
    rw [single]
    exact final 0
  | succ fuel ih =>
    by_cases same : i = m
    · subst same
      rw [single]
      exact final (fuel + 1)
    · have earlier : i < m := Nat.lt_of_le_of_ne upTo same
      obtain ⟨open_, uncut⟩ := last.before earlier
      obtain ⟨e, fails, delay, distinct⟩ := delayed i upTo open_
      have kept (c : Nat) (cancel : cancelAt = some c) : p.resumes i < c := by
        refine Nat.lt_of_le_of_ne (Nat.le_of_not_lt ?_) (Ne.symm (distinct c cancel))
        intro cut
        exact uncut ⟨c, cancel, cut⟩
      have more : List.range' i (m + 1 - i) = i :: List.range' (i + 1) (m + 1 - (i + 1)) := by
        rw [← List.range'_succ]
        congr 1
        omega
      have rest := ih (i := i + 1) earlier (by omega)
      rw [more]
      exact runFrom_of_again fails delay kept rest

/-! ## The counters -/

/-- What an operation counts: its retries, and the delays that it was handed. -/
structure Counters where
  retries : Nat
  handedOut : Nat

/-- One more, if a number of 32 bits can hold it. -/
def next32 (n : Nat) : Option Nat := if n + 1 < 2 ^ 32 then some (n + 1) else none

/-- What to do after a failed attempt, by the counters. A delay is counted when it is handed out,
and nothing comes of it if there is no number for it. -/
def judge (r : Retryer) (n : Counters) (kind : FailureKind) (chance : Chance) :
    Option (Verdict × Counters) :=
  match kind with
  | .permanent => some (.giveUp, n)
  | .transient =>
    if n.retries = r.ceiling then some (.giveUp, n)
    else
      match r.policy.next n.handedOut chance.elapsed with
      | .exhausted => some (.giveUp, n)
      | .fault why => some (.fault why, n)
      | .delay d =>
        (next32 n.handedOut).map fun handedOut =>
          match r.policy.move d chance.offset with
          | .ok d => (.retryAfter d, { n with handedOut })
          | .error why => (.fault why, { n with handedOut })

/-- Follow an operation from attempt `i` at time `t` on by its counters. A retry is counted when the
wait before it is over; nothing comes of the operation if there is no number for it. -/
def countFrom (r : Retryer) (clock : Span → Nat) (kind : ε → FailureKind)
    (attempt : Nat → Nat × Except ε α) (chance : Nat → Chance) (cancelAt : Option Nat) :
    Nat → Counters → Nat → Nat → Option (Course ε α)
  | fuel, n, i, t =>
    let ended := t + (attempt i).1
    match (attempt i).2 with
    | .ok a => some ⟨[t], ended, .done a⟩
    | .error e =>
      match r.judge n (kind e) (chance i) with
      | none => none
      | some (.giveUp, _) => some ⟨[t], ended, .failed e⟩
      | some (.fault f, _) => some ⟨[t], ended, .fault f⟩
      | some (.retryAfter d, n) =>
        if cancelAt.any (· ≤ ended + clock d) then
          some ⟨[t], max ended (cancelAt.getD 0), .failed e⟩
        else
          match fuel, next32 n.retries with
          | _, none => none
          | 0, _ => some ⟨[t], ended, .failed e⟩
          | fuel + 1, some retries =>
            (countFrom r clock kind attempt chance cancelAt fuel { n with retries } (i + 1)
              (ended + clock d)).map fun rest => ⟨t :: rest.starts, rest.ended, rest.ending⟩

theorem next32_of_lt {n : Nat} (small : r.ceiling < 2 ^ 32) (below : n < r.ceiling) :
    next32 n = some (n + 1) := if_pos (by omega)

theorem judge_eq (small : r.ceiling < 2 ^ 32) (upTo : i ≤ r.ceiling) (kind : FailureKind)
    (chance : Chance) :
    ∃ n, r.judge ⟨i, i⟩ kind chance = some (r.verdict i kind chance, n) ∧
      ∀ d, r.verdict i kind chance = .retryAfter d → n = ⟨i, i + 1⟩ ∧ i < r.ceiling := by
  unfold judge verdict
  cases kind with
  | permanent => exact ⟨_, rfl, by simp⟩
  | transient =>
    dsimp only
    by_cases last : i = r.ceiling
    · exact ⟨⟨i, i⟩, by simp [last], by simp [last]⟩
    · have below : i < r.ceiling := Nat.lt_of_le_of_ne upTo last
      rw [if_neg last, if_neg last]
      cases r.policy.next i chance.elapsed with
      | exhausted => exact ⟨⟨i, i⟩, rfl, by simp⟩
      | fault why => exact ⟨⟨i, i⟩, rfl, by simp⟩
      | delay d =>
        dsimp only
        rw [next32_of_lt small below]
        cases r.policy.move d chance.offset with
        | ok d => exact ⟨⟨i, i + 1⟩, rfl, fun _ _ => ⟨rfl, below⟩⟩
        | error why => exact ⟨⟨i, i + 1⟩, rfl, by simp⟩

/-- **No counter overflows**: by its counters an operation takes the course that it takes by the
numbers of its attempts. -/
theorem countFrom_eq (small : r.ceiling < 2 ^ 32) (upTo : i ≤ r.ceiling) :
    r.countFrom clock kind attempt chance cancelAt fuel ⟨i, i⟩ i t =
      some (r.runFrom clock kind attempt chance cancelAt fuel i t) := by
  fun_induction runFrom r clock kind attempt chance cancelAt fuel i t with
  | case1 fuel i t ended a succeeds => rw [countFrom, succeeds]
  | case2 fuel i t ended e fails final =>
    obtain ⟨n, decision, -⟩ := judge_eq small upTo (kind e) (chance i)
    rw [final] at decision
    rw [countFrom]
    simp only [fails, decision]
    rfl
  | case3 fuel i t ended e fails why broken =>
    obtain ⟨n, decision, -⟩ := judge_eq small upTo (kind e) (chance i)
    rw [broken] at decision
    rw [countFrom]
    simp only [fails, decision]
    rfl
  | case4 fuel i t ended e fails d delay cancelled =>
    obtain ⟨n, decision, -⟩ := judge_eq small upTo (kind e) (chance i)
    rw [delay] at decision
    rw [countFrom]
    simp only [fails, decision]
    exact if_pos cancelled
  | case5 i t ended e fails d delay kept =>
    obtain ⟨n, decision, step⟩ := judge_eq small upTo (kind e) (chance i)
    obtain ⟨rfl, below⟩ := step d delay
    rw [delay] at decision
    rw [countFrom]
    simp only [fails, decision, next32_of_lt small below]
    exact if_neg kept
  | case6 i t ended e fails d delay kept fuel rest ih =>
    obtain ⟨n, decision, step⟩ := judge_eq small upTo (kind e) (chance i)
    obtain ⟨rfl, below⟩ := step d delay
    rw [delay] at decision
    rw [countFrom]
    simp only [fails, decision, next32_of_lt small below]
    exact (if_neg kept).trans (congrArg (Option.map _) (ih below))

/-! ## The result -/

/-- **An operation keeps to its timetable**, and its counters hold out. More fuel than there may be
retries changes nothing. -/
theorem keeps_timetable (r : Retryer) (clock : Span → Nat) (kind : ε → FailureKind)
    (attempt : Nat → Nat × Except ε α) (chance : Nat → Chance) (cancelAt : Option Nat)
    (delay : Nat → Span) (start fuel : Nat) (endless : r.policy.maxElapsed = none)
    (delays : ∀ i < r.limit, r.policy.drawn i (chance i).offset = .ok (delay i))
    (apart : ∀ c, cancelAt = some c →
      ∀ i < r.limit, c ≠ (timetable clock attempt delay start).resumes i)
    (enough : r.limit ≤ fuel) :
    ∃ m, r.KeepsTo kind attempt cancelAt (timetable clock attempt delay start) m
        (r.runFrom clock kind attempt chance cancelAt fuel 0 start) ∧
      (r.ceiling < 2 ^ 32 →
        r.countFrom clock kind attempt chance cancelAt fuel ⟨0, 0⟩ 0 start =
          some (r.runFrom clock kind attempt chance cancelAt fuel 0 start)) := by
  obtain ⟨m, last⟩ := r.exists_isLast kind attempt cancelAt (timetable clock attempt delay start)
  have upTo := last.le_limit
  have enough' : m ≤ 0 + fuel := by omega
  have course := runFrom_eq endless delays apart last (Nat.zero_le m) enough'
  refine ⟨m, ?_, fun small => countFrom_eq small (Nat.zero_le _)⟩
  change r.runFrom clock kind attempt chance cancelAt fuel 0 start = _ at course
  rw [course]
  exact {
    last
    starts := by rw [List.range_eq_range', Nat.sub_zero]
    ending := rfl
    atOnce := fun spent => if_pos spent
    cut := by
      intro open_
      obtain ⟨c, cancel, -⟩ := last.1.resolve_left open_
      refine ⟨c, cancel, ?_⟩
      rw [finish, if_neg open_, cancel]
      rfl
    bounded := by simpa [limit] using upTo }

/-- A retryer with delays of 100, 200 and 400 ms that are never moved. -/
def patient : Retryer :=
  ⟨(Policy.doubling (.ofMillis 100) 3).withJitter (binary64.zero false), 5⟩

/-- An operation whose attempts take 10 ms each and fail is cancelled at 150 ms, in the wait behind
its second attempt. It ends there with the second failure. -/
theorem cancelled_in_wait : ∃ m,
    patient.KeepsTo (fun _ => .transient) (fun i => (10, (.error i : Except Nat Unit))) (some 150)
      (timetable Span.millis (fun i => (10, (.error i : Except Nat Unit)))
        (fun i => .ofMillis (100 * 2 ^ i)) 0) m
      ⟨[0, 110], 150, .failed 1⟩ := by
  have delays : ∀ i < patient.limit,
      patient.policy.drawn i (Chance.plain).offset = .ok (.ofMillis (100 * 2 ^ i)) := by
    decide +kernel
  have apart : ∀ c, some 150 = some c → ∀ i < patient.limit, c ≠
      (timetable Span.millis (fun i => (10, (.error i : Except Nat Unit)))
        (fun i => .ofMillis (100 * 2 ^ i)) 0).resumes i := by
    rintro c ⟨⟩
    decide +kernel
  obtain ⟨m, keeps, -⟩ := keeps_timetable patient Span.millis (fun _ => .transient)
    (fun i => (10, (.error i : Except Nat Unit))) (fun _ => .plain) (some 150)
    (fun i => .ofMillis (100 * 2 ^ i)) 0 3 rfl delays apart (by decide)
  have course : patient.runFrom Span.millis (fun _ => .transient)
      (fun i => (10, (.error i : Except Nat Unit))) (fun _ => .plain) (some 150) 3 0 0 =
        ⟨[0, 110], 150, .failed 1⟩ := by decide +kernel
  exact ⟨m, course ▸ keeps⟩

end Retryer

end CheckAgent
