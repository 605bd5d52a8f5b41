import CheckAgent.Check.State
import CheckAgent.Proofs.Json.Reals
import CheckAgent.Proofs.Json.Records

/-!
# States that are forwarded

A state that a container reports is decoded, encoded again, and decoded where it is forwarded to. A
name and a link are written with escapes that are undone, a status by its name, and a part that is
absent is left out, so that it is absent again. What is left is the progress.

**Progress is narrowed as it is read**, to a value of 32 bits (`Narrow`), and each finite one is
written so that the same value is read from it. A number beyond their range is narrowed to an
infinity. That is written as `null`, and `null` is read as no progress. So a state is read again
**as it is but for an infinite progress**, which gets lost on the way.

Main result: `CheckState.forwarded_of_accepted`.
-/

namespace CheckAgent

open CheckAgent.Json CheckAgent.Number

/-! ## Progress -/

/-- Neither an infinity nor `nan`. -/
def Number.Binary.isFinite : Binary → Bool
  | .finite _ _ _ => true
  | _ => false

namespace Json

/-- A value of 32 bits: the mantissa of a finite one fits, and is in its normal form. -/
def Narrow (b : Binary) : Prop := ∀ s m e, b = .finite s m e → binary32.Canonical m e

theorem narrow_round (s : Bool) (num : Nat) {den : Nat} (pos : 0 < den) :
    Narrow (binary32.round s num den) := by
  intro t m e finite
  exact (Format.canonical_of_round (by decide) (by decide) pos finite).1

/-- The value of 32 bits that is nearest to a number. -/
def Number.narrowed : Number → Binary
  | .natural n => binary32.ofNat n
  | .negative n => binary32.ofInt (-n)
  | .real b => b.convert binary32

theorem Number.narrow_narrowed (n : Number) : Narrow n.narrowed := by
  cases n with
  | natural n => exact narrow_round false n one_pos
  | negative n => exact narrow_round _ _ one_pos
  | real b =>
    cases b with
    | finite s m e => exact narrow_round s _ (ratio_pos m e)
    | infinite s => nofun
    | nan => nofun

theorem Draft.single_eq_ok_iff {d : Draft} {b : Binary} :
    d.single = .ok b ↔ ∃ l n, d = .number l ∧ l.value = .ok n ∧ n.narrowed = b := by
  rw [Draft.single, Draft.numeric_eq_ok_iff]
  refine exists_congr fun l => exists_congr fun n => ?_
  cases n <;> simp [Number.narrowed]

theorem narrow_of_single {d : Draft} {b : Binary} (read : d.single = .ok b) : Narrow b := by
  obtain ⟨l, n, -, -, rfl⟩ := Draft.single_eq_ok_iff.mp read
  exact n.narrow_narrowed

theorem narrow_of_enters {ds : List Draft} {held : Option (Option Binary)}
    (enters : Enters (Draft.optional Draft.single) none ds held) {p : Binary}
    (there : held.join = some p) : Narrow p := by
  obtain ⟨d, -, read⟩ := enters.eq_of_join there
  exact narrow_of_single read

/-- **A progress is read as it was written**, and one that is not finite as none. -/
theorem single_ofBinary {b : Binary} (narrow : Narrow b) :
    Draft.optional Draft.single (Draft.ofJson (Json.ofBinary binary32 b)) =
      .ok ((some b).filter Binary.isFinite) := by
  cases b with
  | finite s m e =>
    obtain ⟨l, c, written, -, value, same⟩ := exists_value (narrow s m e rfl) s
    rw [Json.ofBinary, written]
    have read : (Draft.number l).single = .ok (.finite s m e) :=
      Draft.single_eq_ok_iff.mpr ⟨l, .real c, rfl, value, same⟩
    exact congrArg (some <$> ·) read
  | infinite s => rfl
  | nan => rfl

theorem plain_ofBinary {b : Binary} (narrow : Narrow b) : (Json.ofBinary binary32 b).Plain := by
  cases b with
  | finite s m e =>
    obtain ⟨l, c, written, plain, -⟩ := exists_value (narrow s m e rfl) s
    rw [Json.ofBinary, written]
    exact plain
  | infinite s => trivial
  | nan => trivial

end Json

theorem Status.read_name (status : Status) :
    Status.read (.string (.ok status.name)) = .ok status := by
  cases status <;> rfl

/-! ## The records -/

namespace StateUpdate

/-- The places of the fields of an update. -/
def slots : List (Slot Partial) := [
  ⟨"status", (·.status), fun s v => { s with status := v }, Status.read⟩,
  ⟨"progress", (·.progress), fun s v => { s with progress := v }, Draft.optional Draft.single⟩]

theorem keeps : Keeps record slots where
  fields := rfl
  distinct := by decide
  empty := by simp [slots, record]
  get_set := by simp [slots]
  get_set_other := by simp [slots]
  determined := by
    rintro ⟨⟩ ⟨⟩ same
    simpa [slots] using same
  there := by
    simp [slots, Status.read, Draft.choice, Draft.noChoice, fault, Draft.optional, Draft.single,
      Draft.numeric, Functor.map, Except.map]

theorem narrow_of_read {d : Draft} {u : StateUpdate} (decoded : read d = .ok u) {p : Binary}
    (there : u.progress = some p) : Narrow p := by
  obtain ⟨s, fields, whole⟩ := bind_eq_ok_iff.mp decoded
  obtain ⟨status, -, same⟩ := bind_eq_ok_iff.mp whole
  cases same
  obtain ⟨ms, fits⟩ := Record.exists_fits keeps fields
  exact narrow_of_enters (fits.enters _ (List.mem_cons_of_mem _ List.mem_cons_self)) there

theorem narrow_of_decode {bytes : Text.Bytes} {u : StateUpdate} (decoded : decode bytes = .ok u)
    {p : Binary} (there : u.progress = some p) : Narrow p := by
  rw [decode, decodeBytes] at decoded
  split at decoded
  · exact narrow_of_read (Document.decode_eq_ok_iff.mp decoded).1 there
  · obtain ⟨-, -, refused⟩ := bind_eq_ok_iff.mp decoded
    cases refused

end StateUpdate

namespace CheckState

/-- The places of the fields of a state. -/
def slots : List (Slot Partial) := [
  ⟨"check_id", (·.checkId), fun s v => { s with checkId := v }, Draft.text⟩,
  ⟨"status", (·.status), fun s v => { s with status := v }, Status.read⟩,
  ⟨"progress", (·.progress), fun s v => { s with progress := v }, Draft.optional Draft.single⟩,
  ⟨"raw", (·.raw), fun s v => { s with raw := v }, Draft.optional Draft.text⟩]

theorem keeps : Keeps record slots where
  fields := rfl
  distinct := by decide
  empty := by simp [slots, record]
  get_set := by simp [slots]
  get_set_other := by simp [slots]
  determined := by
    rintro ⟨⟩ ⟨⟩ same
    simpa [slots] using same
  there := by
    simp [slots, Status.read, Draft.choice, Draft.noChoice, fault, Draft.optional, Draft.single,
      Draft.numeric, Draft.text, Functor.map, Except.map]

theorem narrow_of_read {d : Draft} {s : CheckState} (decoded : read d = .ok s) {p : Binary}
    (there : s.progress = some p) : Narrow p := by
  obtain ⟨r, fields, whole⟩ := bind_eq_ok_iff.mp decoded
  obtain ⟨checkId, -, whole⟩ := bind_eq_ok_iff.mp whole
  obtain ⟨status, -, same⟩ := bind_eq_ok_iff.mp whole
  cases same
  obtain ⟨ms, fits⟩ := Record.exists_fits keeps fields
  exact narrow_of_enters (fits.enters _ (.tail _ (.tail _ (.head _)))) there

/-! ## The encoding -/

/-- The members of the encoding, as they are read. -/
def entries (s : CheckState) : List (String × Draft) :=
  [("check_id", .string (.ok s.checkId)), ("status", .string (.ok s.status.name))] ++
    (s.progress.map fun p => ("progress", Draft.ofJson (Json.ofBinary binary32 p))).toList ++
    (s.raw.map fun r => ("raw", .string (.ok r))).toList

/-- The record that they fill. -/
def written (s : CheckState) : Partial where
  checkId := some s.checkId
  status := some s.status
  progress := s.progress.map fun p => (some p).filter Binary.isFinite
  raw := s.raw.map some

theorem ofJson_toJson (s : CheckState) : Draft.ofJson s.toJson = .ofPairs s.entries := by
  rw [toJson, Draft.ofJson_object]
  rcases s with ⟨id, status, _ | p, _ | r⟩ <;> simp [entries, Draft.ofJson]

variable {s : CheckState}

/-- **The encoding fills the record** with the parts of the state and a progress that is finite. -/
theorem read_toJson (narrow : ∀ p, s.progress = some p → Narrow p) :
    record.read (Draft.ofJson s.toJson) = .ok s.written := by
  rw [ofJson_toJson, Record.read_ofPairs keeps]
  obtain ⟨id, status, progress, raw⟩ := s
  refine ⟨?_, ?_⟩
  · intro m mem
    left
    revert m
    cases progress <;> cases raw <;> simp [entries, slots]
  · have name := Status.read_name status
    simp only [slots, List.forall_mem_cons]
    refine ⟨?_, ?_, ?_, ?_, by simp⟩
    · cases progress <;> cases raw <;> exact .given rfl
    · cases progress <;> cases raw <;> exact .given name
    · cases progress with
      | none => cases raw <;> exact .kept
      | some p => cases raw <;> exact .given (single_ofBinary (narrow p rfl))
    · cases progress <;> cases raw
      · exact .kept
      · exact .given rfl
      · exact .kept
      · exact .given rfl

theorem plain_toJson (narrow : ∀ p, s.progress = some p → Narrow p) : s.toJson.Plain := by
  obtain ⟨id, status, _ | p, _ | r⟩ := s
  · exact ⟨trivial, trivial, trivial⟩
  · exact ⟨trivial, trivial, trivial, trivial⟩
  · exact ⟨trivial, trivial, plain_ofBinary (narrow p rfl), trivial⟩
  · exact ⟨trivial, trivial, plain_ofBinary (narrow p rfl), trivial, trivial⟩

/-- **What is read of a state** that was written. -/
theorem decode_toJson (narrow : ∀ p, s.progress = some p → Narrow p) :
    decode s.toJson.render = .ok { s with progress := s.progress.filter Binary.isFinite } := by
  rw [decode, decode_render read _ (plain_toJson narrow), read, read_toJson narrow, ok_bind]
  obtain ⟨id, status, _ | p, _ | r⟩ := s <;> rfl

/-! ## Forwarding -/

/-- A state that is forwarded: one that was decoded, or that says of a check what the check said in
an update. -/
inductive Accepted : CheckState → Prop
  | decoded {text : String} {s : CheckState} (state : decode text = .ok s) : Accepted s
  | updated {bytes : Text.Bytes} {u : StateUpdate} (update : StateUpdate.decode bytes = .ok u)
      (id : String) : Accepted ⟨id, u.status, u.progress, none⟩

theorem Accepted.narrow (accepted : Accepted s) {p : Binary} (there : s.progress = some p) :
    Narrow p := by
  cases accepted with
  | decoded state => exact narrow_of_read (Document.decode_eq_ok_iff.mp state).1 there
  | updated update id => exact StateUpdate.narrow_of_decode update there

/-- How a state arrives where it is forwarded to. -/
structure Forwarded (s : CheckState) : Prop where
  /-- All its parts are read, but a progress that is not finite is absent. -/
  read : decode s.toJson.render = .ok { s with progress := s.progress.filter Binary.isFinite }
  /-- It is the same state just if its progress, where it has one, is finite. -/
  same_iff : decode s.toJson.render = .ok s ↔ ∀ p, s.progress = some p → p.isFinite = true

/-- **A state survives forwarding** unless its progress is beyond the range of 32 bits. -/
theorem forwarded_of_accepted (accepted : Accepted s) : Forwarded s := by
  have arrives := decode_toJson fun p there => accepted.narrow there
  refine ⟨arrives, ?_⟩
  rw [arrives, Except.ok.injEq]
  obtain ⟨id, status, _ | p, raw⟩ := s
  · simp
  · simp [Option.filter_eq_some_iff]

/-- A text with a progress of a tenth. -/
def tenthText : String :=
  "\x7b\"check_id\":\"c1\",\"status\":\"RUNNING\",\"progress\":0.1\x7d"

/-- The state in it, with the value of 32 bits that is nearest to a tenth. -/
def tenth : CheckState := ⟨"c1", .running, some (.finite false 13421773 (-27)), none⟩

theorem decode_tenthText : decode tenthText = .ok tenth :=
  toOption_eq_some_iff.mp (by decide +kernel)

theorem tenth_forwarded : Accepted tenth ∧ decode tenth.toJson.render = .ok tenth := by
  refine ⟨.decoded decode_tenthText, ?_⟩
  rw [(forwarded_of_accepted (.decoded decode_tenthText)).same_iff]
  rintro p ⟨⟩
  rfl

/-- A text with a progress that is a number of 64 bits and not of 32. -/
def largeText : String :=
  "\x7b\"check_id\":\"c1\",\"status\":\"RUNNING\",\"progress\":1e39\x7d"

def large : CheckState := ⟨"c1", .running, some (.infinite false), none⟩

/-- Its progress is gone where it is forwarded to. -/
theorem large_progress_lost : decode largeText = .ok large ∧
    decode large.toJson.render = .ok (plain "c1" .running) ∧
    decode large.toJson.render ≠ .ok large := by
  have arrives : decode large.toJson.render = .ok (plain "c1" .running) :=
    toOption_eq_some_iff.mp (by decide +kernel)
  refine ⟨toOption_eq_some_iff.mp (by decide +kernel), arrives, ?_⟩
  rw [arrives]
  nofun

end CheckState

end CheckAgent
