import CheckAgent.Job
import CheckAgent.Proofs.Json.Records

/-!
# Reading a job message

A job message is read by the names of its fields. Written as an object, **the order of its members
and members with unknown names do not count**, and no field may be repeated. Written as a list, it
is the object that names the items in the declared order of the fields. All this is said of the
draft of a message, so of every text: a draft carries the faults of its text, and a member that
cannot be read is as wrong in one place as in another.

**A field that is not there** has a default, which may as well be written out (`defaults`). For the
start time, its second name, the variables and the metadata it is `null`; the other fields do not
take that. The second name of the start time counts just where the first has no value (`Void`), and
a value that is there must be right even if the other one would do.

Main result: `read_by_name`.
-/

namespace CheckAgent.Job

open CheckAgent.Json

/-! ## The fields and their places -/

namespace Place

@[simp] def checkId : Slot Partial :=
  ⟨"check_id", (·.checkId), fun s v => { s with checkId := v }, Draft.text⟩
@[simp] def startTime : Slot Partial :=
  ⟨"start_time", (·.startTime), fun s v => { s with startTime := v }, Draft.optional Draft.text⟩
@[simp] def scanStartTime : Slot Partial :=
  ⟨"scan_start_time", (·.scanStartTime), fun s v => { s with scanStartTime := v },
    Draft.optional Draft.text⟩
@[simp] def image : Slot Partial :=
  ⟨"image", (·.image), fun s v => { s with image := v }, Draft.text⟩
@[simp] def target : Slot Partial :=
  ⟨"target", (·.target), fun s v => { s with target := v }, Draft.text⟩
@[simp] def timeout : Slot Partial :=
  ⟨"timeout", (·.timeout), fun s v => { s with timeout := v }, Draft.word⟩
@[simp] def assetType : Slot Partial :=
  ⟨"assettype", (·.assetType), fun s v => { s with assetType := v }, Draft.text⟩
@[simp] def options : Slot Partial :=
  ⟨"options", (·.options), fun s v => { s with options := v }, Draft.text⟩
@[simp] def requiredVars : Slot Partial :=
  ⟨"required_vars", (·.requiredVars), fun s v => { s with requiredVars := v },
    Draft.optional (Draft.list Draft.text)⟩
@[simp] def metadata : Slot Partial :=
  ⟨"metadata", (·.metadata), fun s v => { s with metadata := v },
    Draft.optional (Draft.dictionary Draft.text)⟩

end Place

/-- The places of the fields of a job message. -/
def slots : List (Slot Partial) := [
  Place.checkId, Place.startTime, Place.scanStartTime, Place.image, Place.target, Place.timeout,
  Place.assetType, Place.options, Place.requiredVars, Place.metadata]

/-- The names of the fields in their declared order. -/
def names : List String := slots.map (·.name)

theorem keeps : Keeps record slots where
  fields := rfl
  distinct := by decide
  empty := by simp [slots, record]
  get_set := by simp [slots]
  get_set_other := by simp [slots]
  determined := by
    rintro ⟨⟩ ⟨⟩ same
    simpa [slots] using same
  there := by
    simp [slots, Draft.text, Draft.optional, Draft.word, Draft.numeric, Draft.list,
      Draft.dictionary, Functor.map, Except.map]

/-! ## The job of a message -/

/-- The job that a message holds, if it holds one. -/
def read? (d : Draft) : Option Job := (read d).toOption

theorem decode_eq_ok_iff {text : String} {j : Job} :
    decode text = .ok j ↔
      read? (Document.ofString text).draft = some j ∧
        (Document.ofString text).trailing = false := by
  rw [decode, Document.decode_eq_ok_iff, read?, toOption_eq_some_iff]

theorem read?_eq_some_iff {d : Draft} {j : Job} :
    read? d = some j ↔ ∃ s, record.read d = .ok s ∧ ofPartial s = .ok j := by
  rw [read?, toOption_eq_some_iff, read, bind_eq_ok_iff]

/-- Messages whose fields are read alike hold the same job. -/
theorem read?_congr {d d' : Draft} (same : ∀ s, record.read d = .ok s ↔ record.read d' = .ok s) :
    read? d = read? d' := by
  apply Option.ext
  intro j
  simp only [read?_eq_some_iff, same]

theorem read?_ofPairs {ms : List (String × Draft)} {j : Job} :
    read? (.ofPairs ms) = some j ↔ ∃ s, Fits slots record.empty ms s ∧ ofPartial s = .ok j := by
  simp only [read?_eq_some_iff, Record.read_ofPairs keeps]

/-- The job of an object with one more field, which is read and stored last. -/
theorem read?_cons {f : Slot Partial} (hf : f ∈ slots) {d : Draft} {ms : List (String × Draft)}
    (absent : f.name ∉ ms.map (·.1)) {j : Job} :
    read? (.ofPairs ((f.name, d) :: ms)) = some j ↔
      ∃ v, f.read d = .ok v ∧
        ∃ s, Fits slots record.empty ms s ∧ ofPartial (f.set s (some v)) = .ok j := by
  rw [read?_ofPairs]
  simp only [keeps.fits_cons_absent hf absent]
  constructor
  · rintro ⟨_, ⟨v, s, value, fits, rfl⟩, job⟩
    exact ⟨v, value, s, fits, job⟩
  · rintro ⟨v, value, s, fits, job⟩
    exact ⟨_, ⟨v, s, value, fits, rfl⟩, job⟩

theorem startTimeOf_eq_ok_iff {s : Partial} {i : Instant} :
    startTimeOf s = .ok i ↔
      ∃ t, s.startTime.join.or s.scanStartTime.join = some t ∧ StartTime.read t = .ok i := by
  rw [startTimeOf, bind_eq_ok_iff]
  simp only [require_eq_ok_iff]
  apply exists_congr
  intro t
  apply and_congr_right
  intro _
  cases StartTime.read t with
  | error e => simp
  | ok i => simp [pure, Except.pure]

/-- What a whole record gives: the fields that must be there, a start time from one of its two
names, and the others with their defaults. -/
theorem ofPartial_eq_ok_iff {s : Partial} {j : Job} :
    ofPartial s = .ok j ↔
      s.checkId = some j.checkId ∧ s.image = some j.image ∧ s.target = some j.target ∧
      startTimeOf s = .ok j.startTime ∧ s.timeout.getD 0 = j.timeout ∧
      s.assetType.getD "" = j.assetType ∧ s.options.getD "" = j.options ∧
      s.requiredVars.join.getD [] = j.requiredVars ∧
      lastValues (s.metadata.join.getD []) = j.metadata := by
  unfold ofPartial
  simp only [bind_eq_ok_iff, require_eq_ok_iff, pure, Except.pure, Except.ok.injEq]
  constructor
  · rintro ⟨_, checkId, _, image, _, target, _, start, rfl⟩
    exact ⟨checkId, image, target, start, rfl, rfl, rfl, rfl, rfl⟩
  · rintro ⟨checkId, image, target, start, timeout, assetType, options, requiredVars, metadata⟩
    exact ⟨_, checkId, _, image, _, target, _, start, by
      rw [timeout, assetType, options, requiredVars, metadata]⟩

/-! ## Fields without a value -/

/-- A field has no value: it is absent or `null`. -/
def Void (name : String) (ms : List (String × Draft)) : Prop := ∀ d, (name, d) ∈ ms → d = .null

theorem void_iff {name : String} {ms : List (String × Draft)} :
    Void name ms ↔ ∀ d ∈ under name ms, d = .null := by
  simp only [Void, mem_under]

section Fitting

variable {ms : List (String × Draft)} {s : Partial}

theorem enters_startTime (fits : Fits slots record.empty ms s) :
    Enters (Draft.optional Draft.text) none (under "start_time" ms) s.startTime :=
  fits.enters Place.startTime (by simp [slots])

theorem enters_scanStartTime (fits : Fits slots record.empty ms s) :
    Enters (Draft.optional Draft.text) none (under "scan_start_time" ms) s.scanStartTime :=
  fits.enters Place.scanStartTime (by simp [slots])

theorem enters_requiredVars (fits : Fits slots record.empty ms s) :
    Enters (Draft.optional (Draft.list Draft.text)) none (under "required_vars" ms)
      s.requiredVars :=
  fits.enters Place.requiredVars (by simp [slots])

theorem enters_metadata (fits : Fits slots record.empty ms s) :
    Enters (Draft.optional (Draft.dictionary Draft.text)) none (under "metadata" ms) s.metadata :=
  fits.enters Place.metadata (by simp [slots])

theorem startTime_of_present (fits : Fits slots record.empty ms s) {d : Draft}
    (mem : ("start_time", d) ∈ ms) (present : d ≠ .null) :
    ∃ t, d = .string (.ok t) ∧ s.startTime.join = some t := by
  have enters := enters_startTime fits
  cases value : s.startTime.join with
  | none => exact absurd (enters.join_eq_none_iff.mp value d (mem_under.mpr mem)) present
  | some t =>
    obtain ⟨d', only, read⟩ := enters.eq_of_join value
    obtain rfl : d = d' := List.mem_singleton.mp (only ▸ mem_under.mpr mem)
    exact ⟨t, Draft.text_eq_ok_iff.mp read, rfl⟩

theorem startTimeOf_of_present (fits : Fits slots record.empty ms s) {d : Draft}
    (mem : ("start_time", d) ∈ ms) (present : d ≠ .null) {i : Instant}
    (start : startTimeOf s = .ok i) : ∃ t, d = .string (.ok t) ∧ StartTime.read t = .ok i := by
  obtain ⟨t, rfl, own⟩ := startTime_of_present fits mem present
  obtain ⟨t', value, read⟩ := startTimeOf_eq_ok_iff.mp start
  rw [own, Option.some_or, Option.some_inj] at value
  exact ⟨t, rfl, value ▸ read⟩

theorem startTimeOf_of_void (fits : Fits slots record.empty ms s) (void : Void "start_time" ms)
    {i : Instant} (start : startTimeOf s = .ok i) :
    ∃ t, ("scan_start_time", .string (.ok t)) ∈ ms ∧ StartTime.read t = .ok i := by
  obtain ⟨t, value, read⟩ := startTimeOf_eq_ok_iff.mp start
  rw [(enters_startTime fits).join_eq_none_iff.mpr (void_iff.mp void), Option.none_or] at value
  obtain ⟨d, only, text⟩ := (enters_scanStartTime fits).eq_of_join value
  obtain rfl := Draft.text_eq_ok_iff.mp text
  exact ⟨t, mem_under.mp (only ▸ List.mem_singleton_self _), read⟩

end Fitting

/-! ## Members that do not count -/

theorem read?_eq_none {ms : List (String × Draft)}
    (refused : ∀ s j, Fits slots record.empty ms s → ofPartial s ≠ .ok j) :
    read? (.ofPairs ms) = none := by
  rw [Option.eq_none_iff_forall_ne_some]
  intro j read
  obtain ⟨s, fits, job⟩ := read?_ofPairs.mp read
  exact refused s j fits job

/-- A first member that leaves the job of every record as it is does not count. -/
theorem read?_cons_eq {f : Slot Partial} (hf : f ∈ slots) {d : Draft} {ms : List (String × Draft)}
    (absent : f.name ∉ ms.map (·.1)) {v : f.α} (value : f.read d = .ok v)
    (same : ∀ s, Fits slots record.empty ms s → ofPartial (f.set s (some v)) = ofPartial s) :
    read? (.ofPairs ((f.name, d) :: ms)) = read? (.ofPairs ms) := by
  apply Option.ext
  intro j
  rw [read?_cons hf absent, read?_ofPairs]
  constructor
  · rintro ⟨v', value', s, fits, job⟩
    obtain rfl : v = v' := Except.ok.inj (value.symm.trans value')
    exact ⟨s, fits, same s fits ▸ job⟩
  · rintro ⟨s, fits, job⟩
    exact ⟨v, value, s, fits, (same s fits).trans job⟩

/-- The values that stand for an absent field. -/
def defaults : List (String × Draft) := [
  ("start_time", .null), ("scan_start_time", .null), ("timeout", .number (.ofNat 0)),
  ("assettype", .string (.ok "")), ("options", .string (.ok "")), ("required_vars", .null),
  ("required_vars", .array [] .closed), ("metadata", .null), ("metadata", .ofPairs [])]

/-- Each of them can be read, and fills its field with what is assumed where it is vacant. -/
theorem exists_slot_of_default {m : String × Draft} (default : m ∈ defaults) :
    ∃ f ∈ slots, f.name = m.1 ∧ ∃ v, f.read m.2 = .ok v ∧
      ∀ s, f.get s = none → ofPartial (f.set s (some v)) = ofPartial s := by
  simp only [defaults, List.mem_cons, List.not_mem_nil, or_false] at default
  rcases default with rfl | rfl | rfl | rfl | rfl | rfl | rfl | rfl | rfl
  · exact ⟨Place.startTime, by simp [slots], rfl, none, rfl, by rintro ⟨⟩ ⟨⟩; rfl⟩
  · exact ⟨Place.scanStartTime, by simp [slots], rfl, none, rfl, by rintro ⟨⟩ ⟨⟩; rfl⟩
  · exact ⟨Place.timeout, by simp [slots], rfl, (0 : Nat), rfl, by rintro ⟨⟩ ⟨⟩; rfl⟩
  · exact ⟨Place.assetType, by simp [slots], rfl, "", rfl, by rintro ⟨⟩ ⟨⟩; rfl⟩
  · exact ⟨Place.options, by simp [slots], rfl, "", rfl, by rintro ⟨⟩ ⟨⟩; rfl⟩
  · exact ⟨Place.requiredVars, by simp [slots], rfl, none, rfl, by rintro ⟨⟩ ⟨⟩; rfl⟩
  · exact ⟨Place.requiredVars, by simp [slots], rfl, some [], rfl, by rintro ⟨⟩ ⟨⟩; rfl⟩
  · exact ⟨Place.metadata, by simp [slots], rfl, none, rfl, by rintro ⟨⟩ ⟨⟩; rfl⟩
  · exact ⟨Place.metadata, by simp [slots], rfl, some [], rfl, by rintro ⟨⟩ ⟨⟩; rfl⟩

theorem read?_default {m : String × Draft} (default : m ∈ defaults) {ms : List (String × Draft)}
    (absent : m.1 ∉ ms.map (·.1)) : read? (.ofPairs (m :: ms)) = read? (.ofPairs ms) := by
  obtain ⟨name, d⟩ := m
  obtain ⟨f, hf, rfl, v, value, same⟩ := exists_slot_of_default default
  apply read?_cons_eq hf absent value
  intro s fits
  exact same s ((fits.untouched hf absent).symm.trans (keeps.empty f hf))

/-- The fields that are not read from `null`. -/
theorem read?_null_refused {ms : List (String × Draft)} {name : String}
    (known : name ∈ ["timeout", "assettype", "options"]) (mem : (name, .null) ∈ ms) :
    read? (.ofPairs ms) = none := by
  have unread : ∃ f ∈ slots, f.name = name ∧ ∀ v, f.read .null ≠ .ok v := by
    simp only [List.mem_cons, List.not_mem_nil, or_false] at known
    rcases known with rfl | rfl | rfl
    · exact ⟨Place.timeout, by simp [slots], rfl, nofun⟩
    · exact ⟨Place.assetType, by simp [slots], rfl, nofun⟩
    · exact ⟨Place.options, by simp [slots], rfl, nofun⟩
  obtain ⟨f, hf, rfl, unread⟩ := unread
  apply read?_eq_none
  intro s j fits _
  obtain ⟨v, value⟩ := fits.reads hf mem
  exact unread v value

theorem read?_shadowed {ms : List (String × Draft)} {t : String} (present : ¬Void "start_time" ms)
    (absent : "scan_start_time" ∉ ms.map (·.1)) :
    read? (.ofPairs (("scan_start_time", .string (.ok t)) :: ms)) = read? (.ofPairs ms) := by
  simp only [Void, not_forall] at present
  obtain ⟨d, mem, there⟩ := present
  apply read?_cons_eq (show Place.scanStartTime ∈ slots by simp [slots]) absent (v := some t) rfl
  intro s fits
  obtain ⟨t', -, own⟩ := startTime_of_present fits mem there
  show ofPartial { s with scanStartTime := some (some t) } = ofPartial s
  simp only [ofPartial, startTimeOf, own, Option.some_or]

theorem read?_renamed {ms : List (String × Draft)} {d : Draft}
    (absent : "start_time" ∉ ms.map (·.1)) (absent' : "scan_start_time" ∉ ms.map (·.1)) :
    read? (.ofPairs (("scan_start_time", d) :: ms)) =
      read? (.ofPairs (("start_time", d) :: ms)) := by
  have first : Place.startTime ∈ slots := by simp [slots]
  have second : Place.scanStartTime ∈ slots := by simp [slots]
  have alike : ∀ v s, Fits slots record.empty ms s →
      ofPartial { s with scanStartTime := some v } = ofPartial { s with startTime := some v } := by
    intro v s fits
    have vacant : none = s.startTime := fits.untouched first absent
    have vacant' : none = s.scanStartTime := fits.untouched second absent'
    simp only [ofPartial, startTimeOf, ← vacant, ← vacant', Option.join_none, Option.none_or,
      Option.or_none]
  apply Option.ext
  intro j
  constructor
  · intro read
    obtain ⟨v, value, s, fits, job⟩ := (read?_cons second absent').mp read
    exact (read?_cons first absent).mpr ⟨v, value, s, fits, (alike v s fits).symm.trans job⟩
  · intro read
    obtain ⟨v, value, s, fits, job⟩ := (read?_cons first absent).mp read
    exact (read?_cons second absent').mpr ⟨v, value, s, fits, (alike v s fits).trans job⟩

/-! ## Reading by name -/

/-- What it means that jobs are read by the names of their fields. -/
structure ByName (read? : Draft → Option Job) : Prop where
  /-- Members come in any order. -/
  order : ∀ ms ms', ms.Perm ms' → read? (.ofPairs ms) = read? (.ofPairs ms')
  /-- Well-formed members with unknown names do not count. -/
  unknown : ∀ xs ys name d, name ∉ names → d.skip = .ok () →
    read? (.ofPairs (xs ++ (name, d) :: ys)) = read? (.ofPairs (xs ++ ys))
  /-- A known name does not come twice. -/
  twice : ∀ ms, ∀ name ∈ names, 2 ≤ (ms.map (·.1)).count name → read? (.ofPairs ms) = none
  /-- The start time is its own member, if that is there and not `null`. -/
  present : ∀ ms j d, read? (.ofPairs ms) = some j → ("start_time", d) ∈ ms → d ≠ .null →
    ∃ t, d = .string (.ok t) ∧ StartTime.read t = .ok j.startTime
  /-- A start time that is there and cannot be read is refused, whatever the second name holds. -/
  malformed : ∀ ms d, ("start_time", d) ∈ ms → d ≠ .null →
    (¬∃ t i, d = .string (.ok t) ∧ StartTime.read t = .ok i) → read? (.ofPairs ms) = none
  /-- The second name beside a start time that is there does not count. -/
  shadowed : ∀ ms t, ¬Void "start_time" ms → "scan_start_time" ∉ ms.map (·.1) →
    read? (.ofPairs (("scan_start_time", .string (.ok t)) :: ms)) = read? (.ofPairs ms)
  /-- Otherwise the start time is the member under the second name. -/
  fallback : ∀ ms j, read? (.ofPairs ms) = some j → Void "start_time" ms →
    ∃ t, ("scan_start_time", .string (.ok t)) ∈ ms ∧ StartTime.read t = .ok j.startTime
  /-- The second name does as well as the first. -/
  renamed : ∀ ms d, "start_time" ∉ ms.map (·.1) → "scan_start_time" ∉ ms.map (·.1) →
    read? (.ofPairs (("scan_start_time", d) :: ms)) = read? (.ofPairs (("start_time", d) :: ms))
  /-- A field that is absent is as good as one with its default: `null` for the start times, and
  `null` or nothing at all for the variables and the metadata. -/
  default : ∀ ms, ∀ m ∈ defaults, m.1 ∉ ms.map (·.1) →
    read? (.ofPairs (m :: ms)) = read? (.ofPairs ms)
  /-- Without a value there are no variables. -/
  requiredVars : ∀ ms j, read? (.ofPairs ms) = some j → Void "required_vars" ms →
    j.requiredVars = []
  /-- Without a value there are no metadata. -/
  metadata : ∀ ms j, read? (.ofPairs ms) = some j → Void "metadata" ms → j.metadata = []
  /-- The other fields with a default may not be `null`. -/
  refused : ∀ ms, ∀ name ∈ ["timeout", "assettype", "options"], (name, .null) ∈ ms →
    read? (.ofPairs ms) = none
  /-- A list names its items by their position. -/
  list : ∀ ds, 5 ≤ ds.length → ds.length ≤ 10 →
    read? (.array ds .closed) = read? (.ofPairs (names.zip ds))

/-- **Jobs are read by the names of their fields**, in either shape of a message. -/
theorem read_by_name : ByName read? where
  order ms ms' same := read?_congr fun s => Record.read_perm keeps same
  unknown xs ys name d unknown passes :=
    read?_congr fun s => Record.read_insert keeps unknown passes xs ys
  twice ms name known twice := by
    rw [Option.eq_none_iff_forall_ne_some]
    intro j read
    obtain ⟨s, record, -⟩ := read?_eq_some_iff.mp read
    exact Record.read_twice keeps known twice record
  present := by
    intro ms j d read mem there
    obtain ⟨s, fits, job⟩ := read?_ofPairs.mp read
    obtain ⟨-, -, -, start, -⟩ := ofPartial_eq_ok_iff.mp job
    exact startTimeOf_of_present fits mem there start
  malformed := by
    intro ms d mem there malformed
    apply read?_eq_none
    intro s j fits job
    obtain ⟨-, -, -, start, -⟩ := ofPartial_eq_ok_iff.mp job
    obtain ⟨t, text, read⟩ := startTimeOf_of_present fits mem there start
    exact malformed ⟨t, _, text, read⟩
  shadowed ms t present absent := read?_shadowed present absent
  fallback := by
    intro ms j read void
    obtain ⟨s, fits, job⟩ := read?_ofPairs.mp read
    obtain ⟨-, -, -, start, -⟩ := ofPartial_eq_ok_iff.mp job
    exact startTimeOf_of_void fits void start
  renamed ms d absent absent' := read?_renamed absent absent'
  default ms m known absent := read?_default known absent
  requiredVars := by
    intro ms j read void
    obtain ⟨s, fits, job⟩ := read?_ofPairs.mp read
    obtain ⟨-, -, -, -, -, -, -, vars, -⟩ := ofPartial_eq_ok_iff.mp job
    rw [← vars, (enters_requiredVars fits).join_eq_none_iff.mpr (void_iff.mp void)]
    rfl
  metadata := by
    intro ms j read void
    obtain ⟨s, fits, job⟩ := read?_ofPairs.mp read
    obtain ⟨-, -, -, -, -, -, -, -, metadata⟩ := ofPartial_eq_ok_iff.mp job
    rw [← metadata, (enters_metadata fits).join_eq_none_iff.mpr (void_iff.mp void)]
    rfl
  refused ms name known mem := read?_null_refused known mem
  list ds few many := by
    have last : ∀ f ∈ slots.drop 5, record.optional f.name = true := by
      simp [slots, record, optionalFields]
    have free : ∀ f ∈ slots.drop ds.length, record.optional f.name = true := by
      obtain ⟨more, count⟩ := Nat.exists_eq_add_of_le few
      intro f hf
      rw [count, ← List.drop_drop] at hf
      exact last f (List.mem_of_mem_drop hf)
    apply read?_congr
    intro s
    rw [Record.read_list keeps]
    exact ⟨fun read => read.2.2.2, fun read => ⟨rfl, many, free, read⟩⟩

/-- Five items, the start time under its second name. -/
def fiveItems : List Draft :=
  [.string (.ok "c1"), .null, .string (.ok "2024-03-05 10:11:12 CET"), .string (.ok "nmap"),
    .string (.ok "example.com")]

/-- The five items hold a job, as a list and as an object that goes backwards and begins with a
member of another name. -/
theorem five_items_read :
    read? (.array fiveItems .closed) =
      some ⟨"c1", ⟨1709633472, 0⟩, "nmap", "example.com", 0, "", "", [], []⟩ ∧
    read? (.ofPairs (("team", .ofJson (.array [.null])) :: (names.zip fiveItems).reverse)) =
      read? (.array fiveItems .closed) := by
  refine ⟨by decide +kernel, ?_⟩
  rw [read_by_name.list fiveItems (by decide) (by decide),
    ← read_by_name.order _ _ (List.reverse_perm (names.zip fiveItems))]
  exact read_by_name.unknown [] _ _ _ (by decide) (Draft.skip_ofJson _)

end CheckAgent.Job
