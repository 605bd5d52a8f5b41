import Mathlib.Data.List.Nodup
import CheckAgent.Fallible
import CheckAgent.Json.Decode

/-!
# What reading a record gives

A record is read member by member into a partial record. **Seen from one field** the reading is
short: nothing happens at the members with other names, and of the field's own members there may be
one, which is read. `Enters` says so for one field, and a record is read to the state whose every
field enters so (`members_eq_ok_iff`): the fields do not know of one another, nor of the order in
which they come.

**The place of a field** (`Slot`) is a pair of accessors with the way its value is read. `Keeps`
collects what the places of a record must satisfy: they are told apart by their names, do not
overlap, and together make up the state.

Main results: `Record.read_perm` and `Record.read_insert` for the order of the members and for
unknown ones, `Record.read_twice` for repeated ones, and `Record.read_list` for the list of the
fields in their declared order.
-/

namespace CheckAgent.Json

variable {σ α : Type}

/-! ## Steps of a reader -/

theorem within_eq_ok_iff {segment : Segment} {r : Decoded α} {v : α} :
    within segment r = .ok v ↔ r = .ok v := by
  cases r <;> simp [within, Except.mapError]

theorem check_bind_eq_ok_iff {f : Option Fault} {k : Unit → Decoded α} {v : α} :
    (check f >>= k) = .ok v ↔ f = none ∧ k () = .ok v := by
  cases f with
  | none => simp [check, ok_bind]
  | some f => simp [check, fault, error_bind]

theorem Draft.separation_eq_none {d : Draft} (there : ∀ f, d ≠ .missing f) :
    d.separation = none := by
  cases d with
  | missing f => exact absurd rfl (there f)
  | _ => rfl

theorem Draft.separation_of_skip {d : Draft} (passes : d.skip = .ok ()) : d.separation = none := by
  apply Draft.separation_eq_none
  rintro f rfl
  simp [Draft.skip] at passes

mutual

theorem Draft.skip_ofJson : ∀ v : Json, (Draft.ofJson v).skip = .ok ()
  | .null | .bool _ | .number _ | .string _ => by simp [Draft.ofJson, Draft.skip]
  | .array items => by
    rw [Draft.ofJson, Draft.skip, skipItems_ofItems items]
    rfl
  | .object ms => by
    rw [Draft.ofJson, Draft.skip, skipMembers_ofMembers ms]
    rfl

theorem skipItems_ofItems : ∀ items : List Json, skipItems (Draft.ofItems items) = .ok ()
  | [] => by simp [Draft.ofItems, skipItems]
  | v :: rest => by
    rw [Draft.ofItems, skipItems, Draft.skip_ofJson v, ok_bind, skipItems_ofItems rest]

theorem skipMembers_ofMembers :
    ∀ ms : List (String × Json), skipMembers (Draft.ofMembers ms) = .ok ()
  | [] => by simp [Draft.ofMembers, skipMembers]
  | (_, v) :: rest => by
    rw [Draft.ofMembers, skipMembers, Draft.skip_ofJson v, ok_bind, skipMembers_ofMembers rest]

end

/-! ## Single values -/

theorem Draft.text_eq_ok_iff {d : Draft} {s : String} :
    d.text = .ok s ↔ d = .string (.ok s) := by
  unfold Draft.text
  split <;> simp_all

theorem Draft.optional_eq_ok_iff {read : Draft → Decoded α} {d : Draft} {v : Option α} :
    d.optional read = .ok v ↔
      d = .null ∧ none = v ∨ d ≠ .null ∧ ∃ a, read d = .ok a ∧ some a = v := by
  unfold Draft.optional
  split
  · simp
  · next present =>
    have present : d ≠ .null := present
    simp [present, map_eq_ok_iff]

theorem Draft.numeric_eq_ok_iff {expected : String} {accept : Number → Option (Decoded α)}
    {d : Draft} {a : α} : Draft.numeric expected accept d = .ok a ↔
      ∃ l n, d = .number l ∧ l.value = .ok n ∧ accept n = some (.ok a) := by
  unfold Draft.numeric
  split
  · next l =>
    cases value : l.value with
    | error f => simp [fault, value]
    | ok n => cases taken : accept n <;> simp [value, taken]
  · next other =>
    constructor
    · intro read
      cases read
    · rintro ⟨l, n, rfl, -⟩
      exact (other l rfl).elim

theorem Draft.word_eq_ok_iff {d : Draft} {n : Nat} :
    d.word = .ok n ↔ ∃ l, d = .number l ∧ l.value = .ok (.natural n) := by
  rw [Draft.word, Draft.numeric_eq_ok_iff]
  constructor
  · rintro ⟨l, m, rfl, value, taken⟩
    cases m <;> cases taken
    exact ⟨l, rfl, value⟩
  · rintro ⟨l, rfl, value⟩
    exact ⟨l, _, rfl, value, rfl⟩

theorem Literal.lt_of_value {l : Literal} {n : Nat} (value : l.value = .ok (.natural n)) :
    n < wordLimit := by
  unfold Literal.value at value
  split at value
  · next whole =>
    split at value
    · cases value
      exact whole.2.2
    · repeat' split at value
      all_goals cases value
  · obtain ⟨m, -, read⟩ := bind_eq_ok_iff.mp value
    cases read

theorem Literal.value_ofNat {n : Nat} (small : n < wordLimit) :
    (Literal.ofNat n).value = .ok (.natural n) := by
  unfold Literal.value Literal.ofNat
  rw [if_pos ⟨rfl, rfl, small⟩]
  rfl

theorem Draft.elements_map {read : Draft → Decoded α} (write : α → Draft)
    (back : ∀ a, read (write a) = .ok a) (i : Nat) (as : List α) :
    Draft.elements read .closed i (as.map write) = .ok as := by
  induction as generalizing i with
  | nil => rfl
  | cons a as ih =>
    rw [List.map_cons, Draft.elements, back, ih]
    rfl

theorem Draft.pairs_map {read : Draft → Decoded α} (write : α → Draft)
    (back : ∀ a, read (write a) = .ok a) (there : ∀ a f, write a ≠ .missing f)
    (as : List (String × α)) :
    Draft.pairs read .closed (as.map fun a => (.ok a.1, write a.2)) = .ok as := by
  induction as with
  | nil => rfl
  | cons a as ih =>
    rw [List.map_cons, Draft.pairs, Draft.separation_eq_none (there a.2), back, ih]
    rfl

theorem require_eq_ok_iff {name : String} {held : Option α} {v : α} :
    require name held = .ok v ↔ held = some v := by
  cases held <;> simp [require]

/-- A document is decoded just if its value is and nothing follows it. -/
theorem Document.decode_eq_ok_iff {read : Draft → Decoded α} {doc : Document} {v : α} :
    doc.decode read = .ok v ↔ read doc.draft = .ok v ∧ doc.trailing = false := by
  unfold Document.decode
  rw [bind_eq_ok_iff]
  cases doc.trailing <;> simp [fault, pure, Except.pure]

/-! ## Members by name -/

/-- The draft of an object with the given names and values. -/
def Draft.ofPairs (ms : List (String × Draft)) : Draft :=
  .object (ms.map fun m => (.ok m.1, m.2)) .closed none

theorem Draft.ofItems_eq (items : List Json) : Draft.ofItems items = items.map Draft.ofJson := by
  induction items with
  | nil => rfl
  | cons v rest ih => simp [Draft.ofItems, ih]

theorem Draft.ofMembers_eq (ms : List (String × Json)) :
    Draft.ofMembers ms = ms.map fun m => (.ok m.1, Draft.ofJson m.2) := by
  induction ms with
  | nil => rfl
  | cons m rest ih => simp [Draft.ofMembers, ih]

theorem Draft.ofJson_object (ms : List (String × Json)) :
    Draft.ofJson (.object ms) = .ofPairs (ms.map fun m => (m.1, Draft.ofJson m.2)) := by
  rw [Draft.ofJson, Draft.ofMembers_eq, Draft.ofPairs, List.map_map]
  rfl

/-- The drafts under a name, in the order in which they come. -/
def under (name : String) (ms : List (String × Draft)) : List Draft :=
  (ms.filter (·.1 = name)).map (·.2)

theorem under_cons (name : String) (m : String × Draft) (ms : List (String × Draft)) :
    under name (m :: ms) = if m.1 = name then m.2 :: under name ms else under name ms := by
  by_cases h : m.1 = name <;> simp [under, h]

theorem mem_under {name : String} {d : Draft} {ms : List (String × Draft)} :
    d ∈ under name ms ↔ (name, d) ∈ ms := by
  simp [under]

theorem under_eq_nil {name : String} {ms : List (String × Draft)} (absent : name ∉ ms.map (·.1)) :
    under name ms = [] := by
  rw [List.eq_nil_iff_forall_not_mem]
  intro d there
  exact absent (List.mem_map.mpr ⟨_, mem_under.mp there, rfl⟩)

theorem length_under (name : String) (ms : List (String × Draft)) :
    (under name ms).length = (ms.map (·.1)).count name := by
  induction ms with
  | nil => rfl
  | cons m ms ih =>
    rw [under_cons, List.map_cons, List.count_cons, ← ih]
    by_cases h : m.1 = name <;> simp [h]

theorem under_perm {xs ys : List (String × Draft)} (h : xs.Perm ys) (name : String) :
    (under name xs).Perm (under name ys) := (h.filter _).map _

/-! ## One field -/

/-- What the drafts under its name make of a field: without any it keeps what it holds, and one is
read if the field holds nothing yet. There is no outcome for more. -/
inductive Enters (read : Draft → Decoded α) : Option α → List Draft → Option α → Prop
  | kept {held : Option α} : Enters read held [] held
  | given {d : Draft} {v : α} (value : read d = .ok v) : Enters read none [d] (some v)

namespace Enters

variable {read : Draft → Decoded α} {held held' : Option α}

theorem nil_iff : Enters read held [] held' ↔ held = held' := by
  constructor
  · rintro ⟨⟩; rfl
  · rintro rfl; exact .kept

theorem cons_iff {d : Draft} {ds : List Draft} :
    Enters read held (d :: ds) held' ↔
      held = none ∧ ∃ v, read d = .ok v ∧ Enters read (some v) ds held' := by
  constructor
  · rintro (_ | value)
    exact ⟨rfl, _, value, .kept⟩
  · rintro ⟨rfl, v, value, rest⟩
    cases rest
    exact .given value

theorem reads {ds : List Draft} (h : Enters read held ds held') {d : Draft} (mem : d ∈ ds) :
    ∃ v, read d = .ok v := by
  cases h with
  | kept => cases mem
  | given value =>
    rw [List.mem_singleton.mp mem]
    exact ⟨_, value⟩

theorem length_le {ds : List Draft} (h : Enters read held ds held') : ds.length ≤ 1 := by
  cases h <;> simp

theorem perm {ds ds' : List Draft} (order : ds.Perm ds') (h : Enters read held ds held') :
    Enters read held ds' held' := by
  cases h with
  | kept => rw [order.nil_eq.symm]; exact .kept
  | given value => rw [List.singleton_perm.mp order |>.symm]; exact .given value

/-- The value of a field that holds one in the end. -/
theorem some_iff {ds : List Draft} {v : α} :
    Enters read none ds (some v) ↔ ∃ d, ds = [d] ∧ read d = .ok v := by
  constructor
  · rintro (_ | value)
    exact ⟨_, rfl, value⟩
  · rintro ⟨d, rfl, value⟩
    exact .given value

/-- A field that may be `null` has no value just if nothing but `null` is given for it. -/
theorem join_eq_none_iff {ds : List Draft} {held : Option (Option α)}
    (h : Enters (Draft.optional read) none ds held) : held.join = none ↔ ∀ d ∈ ds, d = .null := by
  cases h with
  | kept => simp
  | given value =>
    rcases Draft.optional_eq_ok_iff.mp value with ⟨rfl, rfl⟩ | ⟨present, a, -, rfl⟩
    · simp
    · simp [present]

/-- The value of a field that may be `null`, if it has one, is read from the only draft. -/
theorem eq_of_join {ds : List Draft} {held : Option (Option α)} {a : α}
    (h : Enters (Draft.optional read) none ds held) (value : held.join = some a) :
    ∃ d, ds = [d] ∧ read d = .ok a := by
  cases h with
  | kept => cases value
  | given outcome =>
    rcases Draft.optional_eq_ok_iff.mp outcome with ⟨-, rfl⟩ | ⟨-, b, read, rfl⟩
    · cases value
    · cases value
      exact ⟨_, rfl, read⟩

end Enters

/-! ## All fields -/

/-- The place of a field in a partial record, and how its value is read. -/
structure Slot (σ : Type) where
  name : String
  {α : Type}
  get : σ → Option α
  set : σ → Option α → σ
  read : Draft → Decoded α

def Slot.field (f : Slot σ) : Field σ := .of f.name f.get (fun s v => f.set s (some v)) f.read

/-- The fields of a record are those at the given places: none is filled at the beginning, a place
gives back what was put there, others leave it alone, and the places make up the state. No field
is read from the gap where a value should be. -/
structure Keeps (r : Record σ) (slots : List (Slot σ)) : Prop where
  fields : r.fields = slots.map Slot.field
  distinct : (slots.map (·.name)).Nodup
  empty : ∀ f ∈ slots, f.get r.empty = none
  get_set : ∀ f ∈ slots, ∀ s v, f.get (f.set s v) = v
  get_set_other : ∀ f ∈ slots, ∀ g ∈ slots, g.name ≠ f.name → ∀ s v, f.get (g.set s v) = f.get s
  determined : ∀ s s', (∀ f ∈ slots, f.get s = f.get s') → s = s'
  there : ∀ f ∈ slots, ∀ gap v, f.read (.missing gap) ≠ .ok v

/-- A partial record is what an object makes of the empty one: unknown members can be passed over,
and each field enters from what stands under its name. -/
structure Fits (slots : List (Slot σ)) (s₀ : σ) (ms : List (String × Draft)) (s : σ) : Prop where
  skipped : ∀ m ∈ ms, m.1 ∈ slots.map (·.name) ∨ m.2.skip = .ok ()
  enters : ∀ f ∈ slots, Enters f.read (f.get s₀) (under f.name ms) (f.get s)

namespace Fits

variable {slots : List (Slot σ)} {s₀ s : σ} {ms : List (String × Draft)} {f : Slot σ}

theorem reads (fits : Fits slots s₀ ms s) (hf : f ∈ slots) {d : Draft} (mem : (f.name, d) ∈ ms) :
    ∃ v, f.read d = .ok v := (fits.enters f hf).reads (mem_under.mpr mem)

theorem untouched (fits : Fits slots s₀ ms s) (hf : f ∈ slots) (absent : f.name ∉ ms.map (·.1)) :
    f.get s₀ = f.get s := by
  have enters := fits.enters f hf
  rwa [under_eq_nil absent, Enters.nil_iff] at enters

end Fits

namespace Keeps

variable {r : Record σ} {slots : List (Slot σ)}

theorem eq_of_name (keeps : Keeps r slots) {f g : Slot σ} (hf : f ∈ slots) (hg : g ∈ slots)
    (name : f.name = g.name) : f = g := List.inj_on_of_nodup_map keeps.distinct hf hg name

/-- What is to be shown of every field is shown of one of them and of those with other names. -/
theorem forall_slots (keeps : Keeps r slots) {f : Slot σ} (hf : f ∈ slots) {P : Slot σ → Prop}
    (own : P f) (others : ∀ g ∈ slots, f.name ≠ g.name → P g) : ∀ g ∈ slots, P g := by
  intro g hg
  by_cases name : f.name = g.name
  · exact keeps.eq_of_name hf hg name ▸ own
  · exact others g hg name

theorem find?_field (keeps : Keeps r slots) {f : Slot σ} (hf : f ∈ slots) :
    r.fields.find? (·.name = f.name) = some f.field := by
  cases found : r.fields.find? (·.name = f.name) with
  | none =>
    rw [keeps.fields] at found
    exact absurd (decide_eq_true rfl) (List.find?_eq_none.mp found _ (List.mem_map_of_mem hf))
  | some g =>
    have mem := List.mem_of_find?_eq_some found
    rw [keeps.fields] at mem
    obtain ⟨g, hg, rfl⟩ := List.mem_map.mp mem
    have name := List.find?_some found
    rw [keeps.eq_of_name hg hf (of_decide_eq_true name)]

theorem find?_unknown (keeps : Keeps r slots) {name : String}
    (unknown : name ∉ slots.map (·.name)) : r.fields.find? (·.name = name) = none := by
  rw [keeps.fields, List.find?_eq_none]
  intro g hg
  obtain ⟨f, hf, rfl⟩ := List.mem_map.mp hg
  intro same
  exact unknown (List.mem_map.mpr ⟨f, hf, of_decide_eq_true same⟩)

theorem put_eq_ok_iff {f : Slot σ} {s s' : σ} {d : Draft} :
    f.field.put s d = .ok s' ↔ ∃ v, f.read d = .ok v ∧ f.set s (some v) = s' := map_eq_ok_iff

/-- A known member is read unless its field is filled already. -/
theorem member_known (keeps : Keeps r slots) {f : Slot σ} (hf : f ∈ slots) {s s' : σ} {d : Draft} :
    member r.fields s f.name d = .ok s' ↔
      f.get s = none ∧ ∃ v, f.read d = .ok v ∧ f.set s (some v) = s' := by
  have seen : f.field.seen s = (f.get s).isSome := rfl
  unfold member
  rw [keeps.find?_field hf]
  dsimp only
  rw [seen]
  cases held : f.get s with
  | some v => simp
  | none =>
    rw [Option.isSome_none, if_neg Bool.false_ne_true, check_bind_eq_ok_iff, within_eq_ok_iff,
      put_eq_ok_iff]
    constructor
    · rintro ⟨-, value⟩
      exact ⟨rfl, value⟩
    · rintro ⟨-, v, value, stored⟩
      refine ⟨Draft.separation_eq_none ?_, v, value, stored⟩
      rintro gap rfl
      exact keeps.there f hf gap v value

/-- An unknown member is passed over. -/
theorem member_unknown (keeps : Keeps r slots) {name : String}
    (unknown : name ∉ slots.map (·.name)) {s s' : σ} {d : Draft} :
    member r.fields s name d = .ok s' ↔ d.skip = .ok () ∧ s = s' := by
  unfold member
  rw [keeps.find?_unknown unknown]
  dsimp only
  rw [check_bind_eq_ok_iff]
  cases skips : d.skip with
  | error f => simp [within_eq_ok_iff, fault]
  | ok _ => simp [Draft.separation_of_skip skips]

/-- One member read, seen from every field. -/
theorem fits_cons_known (keeps : Keeps r slots) {f : Slot σ} (hf : f ∈ slots) {s₀ s : σ} {d : Draft}
    {ms : List (String × Draft)} :
    Fits slots s₀ ((f.name, d) :: ms) s ↔
      f.get s₀ = none ∧ ∃ v, f.read d = .ok v ∧ Fits slots (f.set s₀ (some v)) ms s := by
  constructor
  · intro fits
    have own := fits.enters f hf
    rw [under_cons, if_pos rfl, Enters.cons_iff] at own
    obtain ⟨vacant, v, value, own⟩ := own
    refine ⟨vacant, v, value, fun m hm => fits.skipped m (List.mem_cons_of_mem _ hm),
      keeps.forall_slots hf ?_ ?_⟩
    · rwa [keeps.get_set f hf]
    · intro g hg name
      have other := fits.enters g hg
      rwa [under_cons, if_neg name, ← keeps.get_set_other g hg f hf name s₀ (some v)] at other
  · rintro ⟨vacant, v, value, fits⟩
    refine ⟨?_, keeps.forall_slots hf ?_ ?_⟩
    · intro m hm
      rcases List.mem_cons.mp hm with rfl | hm
      · exact .inl (List.mem_map_of_mem hf)
      · exact fits.skipped m hm
    · have own := fits.enters f hf
      rw [keeps.get_set f hf] at own
      rw [under_cons, if_pos rfl, Enters.cons_iff]
      exact ⟨vacant, v, value, own⟩
    · intro g hg name
      rw [under_cons, if_neg name, ← keeps.get_set_other g hg f hf name s₀ (some v)]
      exact fits.enters g hg

theorem fits_nil (keeps : Keeps r slots) {s₀ s : σ} : Fits slots s₀ [] s ↔ s₀ = s := by
  constructor
  · intro fits
    exact keeps.determined s₀ s fun f hf => Enters.nil_iff.mp (fits.enters f hf)
  · rintro rfl
    exact ⟨by simp, fun f _ => .kept⟩

theorem fits_cons_unknown {name : String} (unknown : name ∉ slots.map (·.name)) {s₀ s : σ}
    {d : Draft} {ms : List (String × Draft)} :
    Fits slots s₀ ((name, d) :: ms) s ↔ d.skip = .ok () ∧ Fits slots s₀ ms s := by
  have same : ∀ f ∈ slots, under f.name ((name, d) :: ms) = under f.name ms := by
    intro f hf
    rw [under_cons, if_neg fun same => unknown (List.mem_map.mpr ⟨f, hf, same.symm⟩)]
  constructor
  · intro fits
    refine ⟨(fits.skipped _ List.mem_cons_self).resolve_left unknown,
      fun m hm => fits.skipped m (List.mem_cons_of_mem _ hm), fun f hf => ?_⟩
    rw [← same f hf]
    exact fits.enters f hf
  · rintro ⟨passes, fits⟩
    refine ⟨?_, fun f hf => ?_⟩
    · intro m hm
      rcases List.mem_cons.mp hm with rfl | hm
      · exact .inr passes
      · exact fits.skipped m hm
    · rw [same f hf]
      exact fits.enters f hf

/-- A value for a field that is not given otherwise is stored last. -/
theorem fits_cons_absent (keeps : Keeps r slots) {f : Slot σ} (hf : f ∈ slots) {s : σ} {d : Draft}
    {ms : List (String × Draft)} (absent : f.name ∉ ms.map (·.1)) :
    Fits slots r.empty ((f.name, d) :: ms) s ↔
      ∃ v s', f.read d = .ok v ∧ Fits slots r.empty ms s' ∧ f.set s' (some v) = s := by
  rw [keeps.fits_cons_known hf, and_iff_right (keeps.empty f hf)]
  constructor
  · rintro ⟨v, value, fits⟩
    refine ⟨v, f.set s none, value, ⟨fits.skipped, keeps.forall_slots hf ?_ ?_⟩,
      keeps.determined _ _ (keeps.forall_slots hf ?_ ?_)⟩
    · rw [under_eq_nil absent, Enters.nil_iff, keeps.get_set f hf, keeps.empty f hf]
    · intro g hg name
      have other := fits.enters g hg
      rwa [keeps.get_set_other g hg f hf name] at other ⊢
    · rw [keeps.get_set f hf, ← fits.untouched hf absent, keeps.get_set f hf]
    · intro g hg name
      rw [keeps.get_set_other g hg f hf name, keeps.get_set_other g hg f hf name]
  · rintro ⟨v, s', value, fits, rfl⟩
    refine ⟨v, value, fits.skipped, keeps.forall_slots hf ?_ ?_⟩
    · rw [under_eq_nil absent, Enters.nil_iff, keeps.get_set f hf, keeps.get_set f hf]
    · intro g hg name
      rw [keeps.get_set_other g hg f hf name, keeps.get_set_other g hg f hf name]
      exact fits.enters g hg

/-- **A record is read field by field**: the members lead to the state in which every field is what
the members of its name make of it. -/
theorem members_eq_ok_iff (keeps : Keeps r slots) (ms : List (String × Draft)) {s₀ s : σ} :
    members r.fields .closed s₀ (ms.map fun m => (.ok m.1, m.2)) = .ok s ↔ Fits slots s₀ ms s := by
  induction ms generalizing s₀ with
  | nil =>
    show (Except.ok s₀ : Decoded σ) = .ok s ↔ _
    rw [keeps.fits_nil, Except.ok.injEq]
  | cons m ms ih =>
    obtain ⟨name, d⟩ := m
    rw [List.map_cons, members, bind_eq_ok_iff]
    simp only [ih]
    by_cases known : name ∈ slots.map (·.name)
    · obtain ⟨f, hf, rfl⟩ := List.mem_map.mp known
      rw [keeps.fits_cons_known hf]
      simp only [keeps.member_known hf]
      constructor
      · rintro ⟨_, ⟨vacant, v, value, rfl⟩, fits⟩
        exact ⟨vacant, v, value, fits⟩
      · rintro ⟨vacant, v, value, fits⟩
        exact ⟨_, ⟨vacant, v, value, rfl⟩, fits⟩
    · rw [fits_cons_unknown known]
      simp only [keeps.member_unknown known]
      constructor
      · rintro ⟨_, ⟨passes, rfl⟩, fits⟩
        exact ⟨passes, fits⟩
      · rintro ⟨passes, fits⟩
        exact ⟨_, ⟨passes, rfl⟩, fits⟩

end Keeps

/-! ## Either shape -/

namespace Record

variable {r : Record σ} {slots : List (Slot σ)} {s : σ}

theorem read_ofPairs (keeps : Keeps r slots) (ms : List (String × Draft)) :
    r.read (.ofPairs ms) = .ok s ↔ Fits slots r.empty ms s := keeps.members_eq_ok_iff ms

/-- Members in another order give the same. -/
theorem read_perm (keeps : Keeps r slots) {ms ms' : List (String × Draft)} (order : ms.Perm ms') :
    r.read (.ofPairs ms) = .ok s ↔ r.read (.ofPairs ms') = .ok s := by
  have half : ∀ {ms ms' : List (String × Draft)}, ms.Perm ms' →
      r.read (.ofPairs ms) = .ok s → r.read (.ofPairs ms') = .ok s := by
    intro ms ms' order read
    rw [read_ofPairs keeps] at read ⊢
    exact ⟨fun m hm => read.skipped m (order.mem_iff.mpr hm),
      fun f hf => (read.enters f hf).perm (under_perm order f.name)⟩
  exact ⟨half order, half order.symm⟩

/-- An unknown member that can be passed over changes nothing. -/
theorem read_insert (keeps : Keeps r slots) {name : String} {d : Draft}
    (unknown : name ∉ slots.map (·.name)) (passes : d.skip = .ok ())
    (xs ys : List (String × Draft)) :
    r.read (.ofPairs (xs ++ (name, d) :: ys)) = .ok s ↔ r.read (.ofPairs (xs ++ ys)) = .ok s := by
  rw [read_perm keeps List.perm_middle, read_ofPairs keeps, Keeps.fits_cons_unknown unknown,
    read_ofPairs keeps, and_iff_right passes]

theorem read_twice (keeps : Keeps r slots) {name : String} (known : name ∈ slots.map (·.name))
    {ms : List (String × Draft)} (twice : 2 ≤ (ms.map (·.1)).count name) :
    r.read (.ofPairs ms) ≠ .ok s := by
  intro read
  rw [read_ofPairs keeps] at read
  obtain ⟨f, hf, rfl⟩ := List.mem_map.mp known
  have once := (read.enters f hf).length_le
  rw [length_under] at once
  omega

/-- Items enter as members with the names of the fields, one after the other. They must not be more
than the fields, and may stop where only optional ones follow. -/
theorem items_eq_ok_iff (keeps : Keeps r slots) (shape : String) (stop : ListStop)
    (todo : List (Slot σ)) (last : todo <:+ slots) (ds : List Draft) (i : Nat) (s₀ : σ)
    (vacant : ∀ f ∈ todo, f.get s₀ = none) :
    items shape r.optional stop s₀ i (todo.map Slot.field) ds = .ok s ↔
      stop = .closed ∧ ds.length ≤ todo.length ∧
        (∀ f ∈ todo.drop ds.length, r.optional f.name = true) ∧
          Fits slots s₀ ((todo.map (·.name)).zip ds) s := by
  induction todo generalizing ds i s₀ with
  | nil =>
    cases ds with
    | nil =>
      show (check stop.finishing >>= fun _ => pure s₀) = .ok s ↔ _
      rw [check_bind_eq_ok_iff]
      cases stop <;> simp [ListStop.finishing, keeps.fits_nil, pure, Except.pure]
    | cons d ds =>
      show fault .trailingCharacters = .ok s ↔ _
      simp [fault]
  | cons f todo ih =>
    have hf : f ∈ slots := last.subset List.mem_cons_self
    have last' : todo <:+ slots := (List.suffix_cons f todo).trans last
    cases ds with
    | nil =>
      have name : f.field.name = f.name := rfl
      rw [List.map_cons, items, check_bind_eq_ok_iff, name]
      by_cases leave : r.optional f.name = true
      · rw [if_pos leave,
          ih last' [] (i + 1) s₀ fun g hg => vacant g (List.mem_cons_of_mem _ hg)]
        cases stop <;> simp [ListStop.reading, leave]
      · rw [if_neg leave]
        simp [leave]
    | cons d ds =>
      -- the places that are still to be filled stay vacant when this one is filled
      have later : ∀ v, ∀ g ∈ todo, g.get (f.set s₀ (some v)) = none := by
        intro v g hg
        have names := keeps.distinct.sublist (last.sublist.map _)
        have other : f.name ≠ g.name := by
          intro same
          exact (List.nodup_cons.mp names).1 (List.mem_map.mpr ⟨g, hg, same.symm⟩)
        rw [keeps.get_set_other g (last'.subset hg) f hf other]
        exact vacant g (List.mem_cons_of_mem _ hg)
      rw [List.map_cons, items, bind_eq_ok_iff, List.map_cons, List.zip_cons_cons,
        keeps.fits_cons_known hf, List.length_cons, List.length_cons, List.drop_succ_cons,
        Nat.succ_le_succ_iff]
      simp only [within_eq_ok_iff, Keeps.put_eq_ok_iff]
      constructor
      · rintro ⟨_, ⟨v, value, rfl⟩, rest⟩
        obtain ⟨closed, fit, free, rest⟩ := (ih last' ds (i + 1) _ (later v)).mp rest
        exact ⟨closed, fit, free, vacant f List.mem_cons_self, v, value, rest⟩
      · rintro ⟨closed, fit, free, -, v, value, rest⟩
        exact ⟨_, ⟨v, value, rfl⟩,
          (ih last' ds (i + 1) _ (later v)).mpr ⟨closed, fit, free, rest⟩⟩

/-- A list is read as the object that gives its items the names of the fields, as far as it goes. -/
theorem read_list (keeps : Keeps r slots) (ds : List Draft) (stop : ListStop) :
    r.read (.array ds stop) = .ok s ↔
      stop = .closed ∧ ds.length ≤ slots.length ∧
        (∀ f ∈ slots.drop ds.length, r.optional f.name = true) ∧
          r.read (.ofPairs ((slots.map (·.name)).zip ds)) = .ok s := by
  rw [read_ofPairs keeps]
  show items r.shape r.optional stop r.empty 0 r.fields ds = .ok s ↔ _
  rw [keeps.fields]
  exact items_eq_ok_iff keeps r.shape stop slots (List.suffix_refl slots) ds 0 r.empty keeps.empty

/-- Members that are read to their end are whole and have names. -/
theorem eq_of_members {fields : List (Field σ)} {stop : ObjectStop}
    {raw : List (Except Fault String × Draft)} {s₀ : σ}
    (read : members fields stop s₀ raw = .ok s) :
    stop = .closed ∧ ∃ ms : List (String × Draft), raw = ms.map fun m => (.ok m.1, m.2) := by
  induction raw generalizing s₀ with
  | nil =>
    rw [members, check_bind_eq_ok_iff] at read
    refine ⟨?_, [], rfl⟩
    cases stop <;> simp [ObjectStop.reading] at read ⊢
  | cons m raw ih =>
    obtain ⟨name | name, d⟩ := m
    · cases read
    · obtain ⟨_, -, rest⟩ := bind_eq_ok_iff.mp read
      obtain ⟨closed, ms, rfl⟩ := ih rest
      exact ⟨closed, (name, d) :: ms, rfl⟩

/-- Whatever a record is read from, its fields enter from named drafts. -/
theorem exists_fits (keeps : Keeps r slots) {d : Draft} (read : r.read d = .ok s) :
    ∃ ms, Fits slots r.empty ms s := by
  cases d with
  | object raw stop found =>
    obtain ⟨rfl, ms, rfl⟩ := eq_of_members read
    exact ⟨ms, (read_ofPairs keeps ms).mp read⟩
  | array ds stop =>
    obtain ⟨-, -, -, named⟩ := (read_list keeps ds stop).mp read
    exact ⟨_, (read_ofPairs keeps _).mp named⟩
  | _ => cases read

end Record

end CheckAgent.Json
