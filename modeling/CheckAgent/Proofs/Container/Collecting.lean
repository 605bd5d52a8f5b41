import CheckAgent.Container.LogItem

/-!
# Output from items

The runtime sends the output of a container as items, in which the two streams come mixed and cut
into chunks as it happens. **What is collected depends on the two streams only**: on the bytes that
the items hold of each of them, in their order (`LogItem.contents`), and, if the runtime fails in
between, on its first failure (`LogItem.firstFailure?`). This is said once, by an equation
(`collect_ofItems`), and every rearrangement that keeps the contents keeps the output.

**Main result** (`collected_by_stream`). The output is all of the first stream, to which a terminal
writes as well, a line feed, and all of the second one. Neighbours of different streams may change
places, a chunk may be cut in two or put together again, and the input of the container may stand
anywhere. A failure takes the place of the output, whatever comes before or after it; it says that
the container is not there just if the runtime answered so.
-/

namespace CheckAgent

open CheckAgent.Text

/-! ## Frames -/

namespace LogStream

/-- The first error among the frames. -/
def fault? : LogStream → Option ContainerError
  | [] => none
  | .ok _ :: rest => fault? rest
  | .error e :: _ => some e

/-- What was written to the first stream. -/
def stdout : LogStream → Bytes
  | [] => []
  | .ok (.stdout bs) :: rest => bs ++ stdout rest
  | _ :: rest => stdout rest

/-- What was written to the second stream. -/
def stderr : LogStream → Bytes
  | [] => []
  | .ok (.stderr bs) :: rest => bs ++ stderr rest
  | _ :: rest => stderr rest

theorem collectFrom_of_fault {frames : LogStream} {e : ContainerError}
    (fault : frames.fault? = some e) (out err : Bytes) :
    collectFrom out err frames = .error e := by
  induction frames generalizing out err with
  | nil => cases fault
  | cons frame rest ih =>
    cases frame with
    | error e' =>
      cases fault
      rfl
    | ok piece => cases piece <;> exact ih fault _ _

theorem collectFrom_of_intact {frames : LogStream} (intact : frames.fault? = none)
    (out err : Bytes) : collectFrom out err frames =
      .ok ((out ++ frames.stdout) ++ '\n'.toUInt8 :: (err ++ frames.stderr)) := by
  induction frames generalizing out err with
  | nil => simp [collectFrom, stdout, stderr]
  | cons frame rest ih =>
    cases frame with
    | error e => cases intact
    | ok piece =>
      cases piece <;>
        · rw [collectFrom, ih intact]
          simp [stdout, stderr, List.append_assoc]

theorem collect_of_fault {frames : LogStream} {e : ContainerError}
    (fault : frames.fault? = some e) : frames.collect = .error e :=
  collectFrom_of_fault fault [] []

/-- **The output that frames make up.** Without an error it is what was written to the two streams,
with a line feed in between. -/
theorem collect_of_intact {frames : LogStream} (intact : frames.fault? = none) :
    frames.collect = .ok (frames.stdout ++ '\n'.toUInt8 :: frames.stderr) :=
  collectFrom_of_intact intact [] []

end LogStream

/-! ## Items -/

inductive LogSource where
  | input
  /-- The first stream. -/
  | output
  /-- The second stream. -/
  | errors
  | failure
  deriving DecidableEq, Repr

namespace LogItem

/-- What an item is a piece of. A terminal writes to the first stream. -/
def source : LogItem → LogSource
  | .stdin _ => .input
  | .stdout _ | .console _ => .output
  | .stderr _ => .errors
  | .failed _ => .failure

def bytes : LogItem → Bytes
  | .stdin bs | .stdout bs | .stderr bs | .console bs => bs
  | .failed _ => []

def failure? : LogItem → Option EngineError
  | .failed e => some e
  | _ => none

/-- What items hold of a source, in their order. -/
def contents (source : LogSource) (items : List LogItem) : Bytes :=
  (items.filter (·.source = source)).flatMap (·.bytes)

/-- The first failure that items tell of. -/
def firstFailure? (items : List LogItem) : Option EngineError := items.findSome? (·.failure?)

variable {container : String} {items items' before after : List LogItem} {a b c : LogItem}
  {e : EngineError}

theorem contents_append (source : LogSource) (items items' : List LogItem) :
    contents source (items ++ items') = contents source items ++ contents source items' := by
  simp [contents]

theorem contents_cons (source : LogSource) (a : LogItem) (items : List LogItem) :
    contents source (a :: items) =
      (if a.source = source then a.bytes else []) ++ contents source items := by
  by_cases same : a.source = source <;> simp [contents, same]

theorem failure?_eq_some_iff : a.failure? = some e ↔ a = .failed e := by
  cases a <;> simp [failure?]

theorem failure?_eq_none_iff : a.failure? = none ↔ a.source ≠ .failure := by
  cases a <;> simp [failure?, source]

theorem firstFailure?_eq_none_iff : firstFailure? items = none ↔ ∀ e, .failed e ∉ items := by
  unfold firstFailure?
  rw [List.findSome?_eq_none_iff]
  constructor
  · intro none e mem
    cases none _ mem
  · intro intact a mem
    cases failure : a.failure? with
    | none => rfl
    | some e => exact absurd (failure?_eq_some_iff.mp failure ▸ mem) (intact e)

theorem firstFailure?_append : firstFailure? (before ++ after) =
    (firstFailure? before).or (firstFailure? after) := List.findSome?_append

theorem firstFailure?_cons :
    firstFailure? (a :: items) = a.failure?.or (firstFailure? items) := by
  cases failure : a.failure? <;> simp [firstFailure?, failure]

/-! ## From items to frames -/

theorem fault?_ofItems : (LogStream.ofItems container items).fault? =
    (firstFailure? items).map (·.ofOperation "logs" container) := by
  induction items with
  | nil => rfl
  | cons a rest ih =>
    cases a with
    | failed e => rfl
    | stdin bs | stdout bs | stderr bs | console bs => exact ih

theorem stdout_ofItems : (LogStream.ofItems container items).stdout = contents .output items := by
  induction items with
  | nil => rfl
  | cons a rest ih =>
    rw [contents_cons, ← ih]
    cases a with
    | stdin bs | stdout bs | stderr bs | console bs | failed e => rfl

theorem stderr_ofItems : (LogStream.ofItems container items).stderr = contents .errors items := by
  induction items with
  | nil => rfl
  | cons a rest ih =>
    rw [contents_cons, ← ih]
    cases a with
    | stdin bs | stdout bs | stderr bs | console bs | failed e => rfl

/-- **What is collected** of items: the contents of the two streams, or the first failure. -/
theorem collect_ofItems (container : String) (items : List LogItem) :
    (LogStream.ofItems container items).collect =
      match firstFailure? items with
      | some e => .error (e.ofOperation "logs" container)
      | none => .ok (contents .output items ++ '\n'.toUInt8 :: contents .errors items) := by
  have fault := @fault?_ofItems container items
  cases failure : firstFailure? items with
  | some e =>
    rw [failure] at fault
    exact LogStream.collect_of_fault fault
  | none =>
    rw [failure] at fault
    rw [LogStream.collect_of_intact fault, stdout_ofItems, stderr_ofItems]

/-- Items from the same streams, with the same first failure. -/
structure Alike (items items' : List LogItem) : Prop where
  failure : firstFailure? items = firstFailure? items'
  output : contents .output items = contents .output items'
  errors : contents .errors items = contents .errors items'

theorem Alike.collect (alike : Alike items items') : (LogStream.ofItems container items).collect =
    (LogStream.ofItems container items').collect := by
  rw [collect_ofItems, collect_ofItems, alike.failure, alike.output, alike.errors]

/-- What comes before and after does not matter. -/
theorem Alike.within (alike : Alike items items') (before after : List LogItem) :
    Alike (before ++ (items ++ after)) (before ++ (items' ++ after)) := by
  obtain ⟨failure, output, errors⟩ := alike
  constructor
  · simp only [firstFailure?_append, failure]
  · simp only [contents_append, output]
  · simp only [contents_append, errors]

theorem alike_swap (other : a.source ≠ b.source) : Alike [a, b] [b, a] := by
  have contents_swap (source : LogSource) : contents source [a, b] = contents source [b, a] := by
    by_cases left : a.source = source
    · have right : b.source ≠ source := fun same => other (left.trans same.symm)
      simp [contents, left, right]
    · simp [contents_cons, left]
  refine ⟨?_, contents_swap .output, contents_swap .errors⟩
  cases failure : a.failure? with
  | none => simp [firstFailure?_cons, failure]
  | some e =>
    have fails : a.source = .failure := congrArg source (failure?_eq_some_iff.mp failure)
    have intact : b.failure? = none := failure?_eq_none_iff.mpr (fails ▸ other.symm)
    simp [firstFailure?_cons, failure, intact]

/-- A chunk may be cut into two of its stream. -/
theorem alike_cut (first : b.source = a.source) (second : c.source = a.source)
    (chunk : a.source ≠ .failure) (cut : b.bytes ++ c.bytes = a.bytes) : Alike [b, c] [a] := by
  have contents_cut (source : LogSource) : contents source [b, c] = contents source [a] := by
    by_cases same : a.source = source
    · simp [contents_cons, first, second, same, ← cut]
    · simp [contents_cons, first, second, same]
  refine ⟨?_, contents_cut .output, contents_cut .errors⟩
  have intact : a.failure? = none ∧ b.failure? = none ∧ c.failure? = none := by
    simp only [failure?_eq_none_iff, first, second]
    exact ⟨chunk, chunk, chunk⟩
  simp [firstFailure?_cons, intact]

theorem alike_input (bs : Bytes) : Alike [.stdin bs] [] := ⟨rfl, rfl, rfl⟩

end LogItem

/-! ## The output -/

namespace EngineError

theorem ofOperation_of_present {e : EngineError} (present : ∀ m, e ≠ .responded 404 m)
    (name target : String) : e.ofOperation name target = .operation name target e.message := by
  unfold ofOperation
  split
  · next m => exact absurd rfl (present m)
  · rfl

/-- A failure tells that something is missing just if the runtime answered so. -/
theorem ofOperation_eq_notFound_iff {e : EngineError} {name target target' : String} :
    e.ofOperation name target = .notFound target' ↔
      target' = target ∧ ∃ m, e = .responded 404 m := by
  constructor
  · intro missing
    by_cases answered : ∃ m, e = .responded 404 m
    · obtain ⟨m, rfl⟩ := answered
      exact ⟨(ContainerError.notFound.inj missing).symm, m, rfl⟩
    · rw [ofOperation_of_present fun m same => answered ⟨m, same⟩] at missing
      cases missing
  · rintro ⟨rfl, m, rfl⟩
    rfl

end EngineError

/-- What is collected of the items that come from a container. -/
structure CollectedByStream (container : String) (items : List LogItem) : Prop where
  /-- Without a failure it is all of the first stream, a line feed, and all of the second. -/
  intact : (∀ e, .failed e ∉ items) → (LogStream.ofItems container items).collect =
    .ok (LogItem.contents .output items ++ '\n'.toUInt8 :: LogItem.contents .errors items)
  /-- Otherwise it is the first failure, whatever comes before and after it. -/
  failed : ∀ before e after, items = before ++ .failed e :: after →
    (∀ e', .failed e' ∉ before) →
      (LogStream.ofItems container items).collect = .error (e.ofOperation "logs" container)
  /-- It says that the container is missing just if the runtime answered so. -/
  missing : ∀ (e : EngineError) target, e.ofOperation "logs" container = .notFound target ↔
    target = container ∧ ∃ m, e = .responded 404 m
  /-- Any other failure keeps its wording. -/
  worded : ∀ e : EngineError, (∀ m, e ≠ .responded 404 m) →
    e.ofOperation "logs" container = .operation "logs" container e.message
  /-- Only the two streams matter, and the first failure. -/
  alike : ∀ items', LogItem.Alike items items' → (LogStream.ofItems container items).collect =
    (LogStream.ofItems container items').collect
  /-- Neighbours of different streams may change places. -/
  swapped : ∀ before a b after, items = before ++ a :: b :: after → a.source ≠ b.source →
    (LogStream.ofItems container items).collect =
      (LogStream.ofItems container (before ++ b :: a :: after)).collect
  /-- Two chunks of one stream may be put together, and one be cut into two. -/
  joined : ∀ before a b c after, items = before ++ a :: b :: after → a.source ≠ .failure →
    b.source = a.source → c.source = a.source → c.bytes = a.bytes ++ b.bytes →
      (LogStream.ofItems container items).collect =
        (LogStream.ofItems container (before ++ c :: after)).collect
  /-- The input of the container may stand anywhere. -/
  input : ∀ before bs after, items = before ++ .stdin bs :: after →
    (LogStream.ofItems container items).collect =
      (LogStream.ofItems container (before ++ after)).collect

open LogItem in
/-- **The output of a container depends on its two streams only.** -/
theorem collected_by_stream (container : String) (items : List LogItem) :
    CollectedByStream container items := by
  refine {
    intact := fun intact => ?intact
    failed := ?failed
    missing := fun _ _ => EngineError.ofOperation_eq_notFound_iff
    worded := fun _ present => EngineError.ofOperation_of_present present _ _
    alike := fun items' alike => alike.collect
    swapped := ?swapped
    joined := ?joined
    input := ?input }
  case intact =>
    rw [collect_ofItems, firstFailure?_eq_none_iff.mpr intact]
  case failed =>
    rintro before e after rfl intact
    rw [collect_ofItems, firstFailure?_append, firstFailure?_eq_none_iff.mpr intact]
    rfl
  case swapped =>
    rintro before a b after rfl other
    exact ((alike_swap other).within before after).collect
  case joined =>
    rintro before a b c after rfl chunk second whole cut
    have first : a.source = c.source := whole.symm
    exact ((alike_cut first (second.trans first) (whole ▸ chunk) cut.symm).within before
      after).collect
  case input =>
    rintro before bs after rfl
    exact ((alike_input bs).within before after).collect

/-- The streams of a run whose items come mixed and in pieces. -/
example : (LogStream.ofItems "c" [.stdout [1], .stderr [7], .stdin [5], .console [2, 3],
    .stderr [8]]).collect = .ok [1, 2, 3, 10, 7, 8] := rfl

end CheckAgent
