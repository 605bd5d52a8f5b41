import CheckAgent.Proofs.Job.Decoding
import CheckAgent.Proofs.Json.Rendering
import CheckAgent.Proofs.Text.Blank

/-!
# Writing a job and reading it again

A job is written with its start time in the internet date format, in which nothing divides the date
from the time and the time from the zone but letters and signs. A start time of a message ends in a
zone behind a blank, so **what is written is never read again as it is** (`read_of_unbroken`,
`unbroken_text`). Nothing else is in the way: with the start time put as messages put it, the
encoding is read to the job from which it was made (`ofPartial_written`).

**The two halves meet** in the partial record `written`: reading the encoding gives it
(`read_toJsonAt`), and it is whole. What a job must satisfy for that, it has from the message
that it was decoded from (`Sound`): its timeout was a word, and its metadata have each name once.

Main result: `decode_encoded`.
-/

namespace CheckAgent

open CheckAgent.Json CheckAgent.Text

/-! ## One value for each name -/

/-- Keep a value: in the place of one with the same name, or at the end. -/
def keepLast (kept : List (String × String)) (p : String × String) : List (String × String) :=
  if kept.any (·.1 = p.1) then kept.map fun q => if q.1 = p.1 then p else q else kept ++ [p]

theorem lastValues_eq (ps : List (String × String)) : lastValues ps = ps.foldl keepLast [] := rfl

theorem keepLast_new {kept : List (String × String)} {p : String × String}
    (new : p.1 ∉ kept.map (·.1)) : keepLast kept p = kept ++ [p] := by
  have none : kept.any (·.1 = p.1) = false := by
    rw [List.any_eq_false]
    intro q mem same
    exact new (List.mem_map.mpr ⟨q, mem, of_decide_eq_true same⟩)
  rw [keepLast, none, if_neg Bool.false_ne_true]

theorem names_keepLast_old {kept : List (String × String)} {p : String × String}
    (old : p.1 ∈ kept.map (·.1)) : (keepLast kept p).map (·.1) = kept.map (·.1) := by
  obtain ⟨q, mem, same⟩ := List.mem_map.mp old
  rw [keepLast, if_pos (List.any_eq_true.mpr ⟨q, mem, decide_eq_true same⟩), List.map_map]
  apply List.map_congr_left
  intro q _
  by_cases same : q.1 = p.1 <;> simp [same]

theorem nodup_lastValues (ps : List (String × String)) : ((lastValues ps).map (·.1)).Nodup := by
  rw [lastValues_eq]
  have start : (([] : List (String × String)).map (·.1)).Nodup := List.nodup_nil
  generalize ([] : List (String × String)) = kept at start ⊢
  induction ps generalizing kept with
  | nil => exact start
  | cons p ps ih =>
    rw [List.foldl_cons]
    apply ih
    by_cases old : p.1 ∈ kept.map (·.1)
    · rwa [names_keepLast_old old]
    · rw [keepLast_new old, List.map_append, List.nodup_append]
      refine ⟨start, List.nodup_singleton _, ?_⟩
      rintro a mem b last rfl
      have same : a = p.1 := List.mem_singleton.mp last
      exact old (same ▸ mem)

theorem lastValues_of_nodup {ps : List (String × String)} (distinct : (ps.map (·.1)).Nodup) :
    lastValues ps = ps := by
  have append : ∀ kept : List (String × String), ((kept ++ ps).map (·.1)).Nodup →
      ps.foldl keepLast kept = kept ++ ps := by
    clear distinct
    induction ps with
    | nil => simp
    | cons p ps ih =>
      intro kept distinct
      have new : p.1 ∉ kept.map (·.1) := by
        intro mem
        rw [List.map_append, List.nodup_append] at distinct
        exact distinct.2.2 p.1 mem p.1 List.mem_cons_self rfl
      rw [List.foldl_cons, keepLast_new new, ih, List.append_assoc, List.singleton_append]
      rwa [List.append_assoc, List.singleton_append]
  exact append [] distinct

/-! ## Texts without blanks -/

/-- A start time must have a blank in it. -/
theorem StartTime.read_of_unbroken {s : String} (unbroken : ∀ c ∈ s.toList, isBlank c = false) :
    StartTime.read s = .error (.missingZone s) := by
  have trimmed : trim s.toList = s.toList := by
    have whole := @trim_append [] s.toList [] (by simp)
      (fun c mem => unbroken c (List.mem_of_mem_head? mem))
      (fun c mem => unbroken c (List.mem_of_getLast? mem))
    simpa using whole
  have single : splitLast? ' ' s.toList = none := by
    rw [splitLast?_eq_none_iff]
    intro mem
    exact absurd (unbroken ' ' mem) (by decide)
  unfold StartTime.read
  rw [trimmed]
  dsimp only
  rw [single]
  dsimp only
  rw [String.ofList_toList]

theorem Instant.unbroken_text (i : Instant) : ∀ c ∈ i.text.toList, isBlank c = false := by
  have digits : ∀ {w n c}, c ∈ padded w n → isBlank c = false :=
    fun mem => isBlank_of_isDigit (isDigit_of_mem_padded mem)
  have group : ∀ {sep w n c}, isBlank sep = false → c = sep ∨ c ∈ padded w n →
      isBlank c = false := by
    rintro sep w n c mark (rfl | mem)
    · exact mark
    · exact digits mem
  have year : ∀ {y c}, c ∈ yearText y → isBlank c = false := by
    intro y c mem
    unfold yearText at mem
    split at mem
    · exact digits mem
    · exact group (by split <;> decide) (List.mem_cons.mp mem)
  have fraction : ∀ {n c}, c ∈ fractionText n → isBlank c = false := by
    intro n c mem
    unfold fractionText at mem
    repeat' split at mem
    · cases mem
    all_goals exact group (by decide) (List.mem_cons.mp mem)
  intro c mem
  simp only [Instant.text, String.toList_ofList, List.mem_append, List.mem_cons,
    List.not_mem_nil, or_false] at mem
  rcases mem with ((((((mem | mem) | mem) | mem) | mem) | mem) | mem) | rfl
  · exact year mem
  · exact group (by decide) mem
  · exact group (by decide) mem
  · exact group (by decide) mem
  · exact group (by decide) mem
  · exact group (by decide) mem
  · exact fraction mem
  · decide

/-! ## The encoding as a message -/

/-- A value in which one member is replaced. -/
def Json.replace (name : String) (v : Json) : Json → Json
  | .object ms => .object (ms.map fun m => if m.1 = name then (name, v) else m)
  | other => other

namespace Job

/-- The encoding of a job with another text for its start time. -/
def toJsonAt (start : String) (j : Job) : Json := Json.replace "start_time" (.string start) j.toJson

theorem toJsonAt_text (j : Job) : j.toJsonAt j.startTime.text = j.toJson := rfl

/-- The record that the encoding of a job fills. -/
def written (start : String) (j : Job) : Partial where
  checkId := some j.checkId
  startTime := some (some start)
  image := some j.image
  target := some j.target
  timeout := some j.timeout
  assetType := some j.assetType
  options := some j.options
  requiredVars := some (some j.requiredVars)
  metadata := some (some j.metadata)

/-- The members of the encoding as drafts. -/
def entries (start : String) (j : Job) : List (String × Draft) := [
  ("check_id", .string (.ok j.checkId)),
  ("start_time", .string (.ok start)),
  ("image", .string (.ok j.image)),
  ("target", .string (.ok j.target)),
  ("timeout", .number (.ofNat j.timeout)),
  ("assettype", .string (.ok j.assetType)),
  ("options", .string (.ok j.options)),
  ("required_vars", .array (j.requiredVars.map fun s => .string (.ok s)) .closed),
  ("metadata", .object (j.metadata.map fun p => (.ok p.1, .string (.ok p.2))) .closed none)]

theorem ofJson_toJsonAt (start : String) (j : Job) :
    Draft.ofJson (j.toJsonAt start) = .ofPairs (entries start j) := by
  rw [toJsonAt, toJson, Json.replace, Draft.ofJson_object]
  simp [Json.ofNat, Draft.ofJson, Draft.ofItems_eq, Draft.ofMembers_eq, Function.comp_def, entries]

/-- **The encoding fills the record** with the fields of the job. -/
theorem read_toJsonAt (start : String) {j : Job} (word : j.timeout < wordLimit) :
    record.read (Draft.ofJson (j.toJsonAt start)) = .ok (written start j) := by
  have timeout : Draft.word (.number (.ofNat j.timeout)) = .ok j.timeout :=
    Draft.word_eq_ok_iff.mpr ⟨_, rfl, Literal.value_ofNat word⟩
  have requiredVars : Draft.optional (Draft.list Draft.text)
      (.array (j.requiredVars.map fun s => .string (.ok s)) .closed) =
        .ok (some j.requiredVars) := by
    show some <$> Draft.elements Draft.text .closed 0 _ = _
    rw [Draft.elements_map (fun s => .string (.ok s)) fun _ => rfl]
    rfl
  have metadata : Draft.optional (Draft.dictionary Draft.text)
      (.object (j.metadata.map fun p => (.ok p.1, .string (.ok p.2))) .closed none) =
        .ok (some j.metadata) := by
    show some <$> Draft.pairs Draft.text .closed _ = _
    rw [Draft.pairs_map (fun s => .string (.ok s)) (fun _ => rfl) (by simp)]
    rfl
  rw [ofJson_toJsonAt, Record.read_ofPairs keeps]
  refine ⟨?_, ?_⟩
  · have known : ∀ name ∈ (entries start j).map (·.1), name ∈ names := by
      simp [entries, names, slots]
    exact fun m mem => .inl (known m.1 (List.mem_map_of_mem mem))
  · simp only [slots, List.forall_mem_cons]
    exact ⟨.given rfl, .given rfl, .kept, .given rfl, .given rfl, .given timeout, .given rfl,
      .given rfl, .given requiredVars, .given metadata, by simp⟩

theorem plain_toJsonAt (start : String) (j : Job) : (j.toJsonAt start).Plain := by
  have timeout : (Literal.ofNat j.timeout).Plain := by simp [Literal.Plain, Literal.ofNat]
  refine ⟨trivial, trivial, trivial, trivial, timeout, trivial, trivial, ?_, ?_, trivial⟩
  · apply plainItems_of_forall
    intro v mem
    obtain ⟨s, -, rfl⟩ := List.mem_map.mp mem
    trivial
  · apply plainMembers_of_forall
    intro m mem
    obtain ⟨p, -, rfl⟩ := List.mem_map.mp mem
    trivial

theorem decode_toJsonAt (start : String) {j : Job} (word : j.timeout < wordLimit) :
    decode (j.toJsonAt start).render = ofPartial (written start j) := by
  rw [decode, decode_render read _ (plain_toJsonAt start j), read, read_toJsonAt start word,
    ok_bind]

/-! ## Decoded jobs -/

/-- What a decoded job is known to satisfy. -/
structure Sound (j : Job) : Prop where
  word : j.timeout < wordLimit
  distinct : (j.metadata.map (·.1)).Nodup
  start : ∃ t, StartTime.read t = .ok j.startTime

theorem sound_of_decode {message : String} {j : Job} (decoded : decode message = .ok j) :
    j.Sound := by
  obtain ⟨s, read, job⟩ := read?_eq_some_iff.mp (decode_eq_ok_iff.mp decoded).1
  obtain ⟨ms, fits⟩ := Record.exists_fits keeps read
  obtain ⟨-, -, -, start, timeout, -, -, -, metadata⟩ := ofPartial_eq_ok_iff.mp job
  obtain ⟨t, -, start⟩ := startTimeOf_eq_ok_iff.mp start
  refine ⟨?_, metadata ▸ nodup_lastValues _, t, start⟩
  have enters : Enters Draft.word none (under "timeout" ms) s.timeout :=
    fits.enters Place.timeout (by simp [slots])
  rw [← timeout]
  cases value : s.timeout with
  | none => exact Nat.pos_of_ne_zero (by decide)
  | some n =>
    rw [value, Enters.some_iff] at enters
    obtain ⟨d, -, read⟩ := enters
    obtain ⟨l, -, value⟩ := Draft.word_eq_ok_iff.mp read
    exact Literal.lt_of_value value

theorem ofPartial_written {start : String} {j : Job} (distinct : (j.metadata.map (·.1)).Nodup)
    (read : StartTime.read start = .ok j.startTime) : ofPartial (written start j) = .ok j :=
  ofPartial_eq_ok_iff.mpr ⟨rfl, rfl, rfl, startTimeOf_eq_ok_iff.mpr ⟨start, rfl, read⟩, rfl, rfl,
    rfl, rfl, lastValues_of_nodup distinct⟩

theorem ofPartial_written_error {start : String} {j : Job} {e : StartTime.Error}
    (refused : StartTime.read start = .error e) :
    ofPartial (written start j) = .error (.here (.refused e.message)) := by
  have here : startTimeOf (written start j) = .error (.here (.refused e.message)) := by
    simp only [startTimeOf, written, Option.join_some, Option.some_or, require, ok_bind, refused]
  show (startTimeOf (written start j) >>= _) = _
  rw [here, error_bind]

/-- **What is written is refused, and only for its start time.** The encoding of a decoded job is
never read, because its start time has no zone behind a blank. With a start time in its place that
stands for the same instant, and there is one, the encoding is read to the job again, in whatever
order its metadata are written. -/
theorem decode_encoded {message : String} {j : Job} (decoded : decode message = .ok j) :
    decode j.toJson.render =
        .error (.here (.refused (StartTime.Error.missingZone j.startTime.text).message)) ∧
      (∃ t, StartTime.read t = .ok j.startTime) ∧
      ∀ t metadata, StartTime.read t = .ok j.startTime → metadata.Perm j.metadata →
        decode (toJsonAt t { j with metadata }).render = .ok { j with metadata } := by
  obtain ⟨word, distinct, start⟩ := sound_of_decode decoded
  refine ⟨?_, start, ?_⟩
  · rw [← toJsonAt_text, decode_toJsonAt _ word]
    exact ofPartial_written_error
      (StartTime.read_of_unbroken (Instant.unbroken_text j.startTime))
  · intro t metadata read order
    rw [decode_toJsonAt t (show { j with metadata }.timeout < wordLimit from word)]
    exact ofPartial_written ((order.map _).nodup_iff.mpr distinct) read

/-- A message with two metadata. -/
def shortMessage : String :=
  "\x7b\"check_id\":\"c1\",\"start_time\":\"2024-03-05 10:11:12 UTC\",\"image\":\"nmap\"," ++
    "\"target\":\"t\",\"metadata\":\x7b\"team\":\"sec\",\"env\":\"prod\"\x7d\x7d"

def shortJob : Job :=
  ⟨"c1", ⟨1709633472, 0⟩, "nmap", "t", 0, "", "", [], [("team", "sec"), ("env", "prod")]⟩

theorem decode_shortMessage : decode shortMessage = .ok shortJob :=
  toOption_eq_some_iff.mp (by decide +kernel)

/-- What is written for it is not read. -/
theorem short_encoding_refused :
    decode shortMessage = .ok shortJob ∧ decode shortJob.toJson.render ≠ .ok shortJob := by
  refine ⟨decode_shortMessage, ?_⟩
  rw [← toJsonAt_text, decode_toJsonAt _ (by decide),
    ofPartial_written_error (StartTime.read_of_unbroken (Instant.unbroken_text shortJob.startTime))]
  nofun

/-- With the start time as it came, and its metadata in another order, it is read. -/
theorem short_encoding_read :
    decode (toJsonAt "2024-03-05 10:11:12 UTC"
      { shortJob with metadata := [("env", "prod"), ("team", "sec")] }).render =
        .ok { shortJob with metadata := [("env", "prod"), ("team", "sec")] } := by
  have start : StartTime.read "2024-03-05 10:11:12 UTC" = .ok shortJob.startTime :=
    toOption_eq_some_iff.mp (by decide +kernel)
  exact (decode_encoded decode_shortMessage).2.2 _ _ start (List.Perm.swap _ _ _)

end Job

end CheckAgent
