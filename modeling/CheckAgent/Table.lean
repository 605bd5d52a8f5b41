/-!
# Tables

A table keeps one value for each of some keys. **Its view** is `get?`: what each operation does to
a table is said by what it does to the view. Setting a key removes the value that it had, so no key
comes twice. A part of a table holds the entries that have a property, and changes of the table are
changes of its part or leave it alone.
-/

namespace CheckAgent

/-- What the members of a list weigh together. -/
def load {α : Type} (weight : α → Nat) : List α → Nat
  | [] => 0
  | a :: rest => weight a + load weight rest

section

variable {α : Type} {weight weight' : α → Nat}

theorem load_append (weight : α → Nat) (l l' : List α) :
    load weight (l ++ l') = load weight l + load weight l' := by
  induction l with
  | nil => exact (Nat.zero_add _).symm
  | cons a rest ih => rw [List.cons_append, load, load, ih, Nat.add_assoc]

theorem load_le_load (l : List α) (le : ∀ a, weight a ≤ weight' a) :
    load weight l ≤ load weight' l := by
  induction l with
  | nil => exact Nat.le_refl 0
  | cons a rest ih => exact Nat.add_le_add (le a) ih

theorem load_eq_zero {l : List α} (none : ∀ a ∈ l, weight a = 0) : load weight l = 0 := by
  induction l with
  | nil => rfl
  | cons a rest ih =>
    rw [load, none a List.mem_cons_self, Nat.zero_add]
    exact ih fun b mem => none b (List.mem_cons_of_mem a mem)

theorem load_one (l : List α) : load (fun _ => 1) l = l.length := by
  induction l with
  | nil => rfl
  | cons a rest ih => rw [load, ih, List.length_cons, Nat.add_comm]

end

/-- Values by keys, the key that was set last in front. -/
structure Table (κ α : Type) where
  entries : List (κ × α)
  nodup : (entries.map (·.1)).Nodup
  deriving DecidableEq, Repr

namespace Table

variable {κ α : Type}

def size (t : Table κ α) : Nat := t.entries.length

def keys (t : Table κ α) : List κ := t.entries.map (·.1)

def empty : Table κ α := ⟨[], .nil⟩

theorem eq_of_entries {t t' : Table κ α} (same : t.entries = t'.entries) : t = t' := by
  cases t; cases t'; cases same; rfl

/-- The sum of what the values weigh. -/
def total (t : Table κ α) (weight : α → Nat) : Nat := load (fun e => weight e.2) t.entries

@[simp] theorem total_empty (weight : α → Nat) : (empty : Table κ α).total weight = 0 := rfl

theorem size_eq_total (t : Table κ α) : t.size = t.total fun _ => 1 :=
  (load_one t.entries).symm

theorem total_le_total {weight weight' : α → Nat} (t : Table κ α)
    (le : ∀ value, weight value ≤ weight' value) : t.total weight ≤ t.total weight' :=
  load_le_load t.entries fun e => le e.2

variable [DecidableEq κ]

def get? (t : Table κ α) (key : κ) : Option α := (t.entries.find? (·.1 = key)).map (·.2)

def erase (t : Table κ α) (key : κ) : Table κ α :=
  ⟨t.entries.filter (·.1 ≠ key), (List.filter_sublist.map _).nodup t.nodup⟩

def set (t : Table κ α) (key : κ) (value : α) : Table κ α where
  entries := (key, value) :: (t.erase key).entries
  nodup := List.nodup_cons.mpr ⟨by simp [erase], (t.erase key).nodup⟩

/-- The table with the value of a key changed, if it has one. -/
def modify (t : Table κ α) (key : κ) (f : α → α) : Table κ α :=
  match t.get? key with
  | some value => t.set key (f value)
  | none => t

def contains (t : Table κ α) (key : κ) : Bool := (t.get? key).isSome

@[simp] theorem get?_empty (key : κ) : (empty : Table κ α).get? key = none := rfl

theorem get?_of_not_contains {t : Table κ α} {key : κ} (fresh : ¬ t.contains key = true) :
    t.get? key = none := by
  simpa [contains] using fresh

theorem get?_erase (t : Table κ α) (key other : κ) :
    (t.erase key).get? other = if other = key then none else t.get? other := by
  simp only [get?, erase]
  generalize t.entries = l
  induction l with
  | nil => simp
  | cons e rest ih =>
    by_cases h : e.1 = key <;> by_cases h' : e.1 = other <;> simp_all

theorem get?_erase_eq_some {t : Table κ α} {key other : κ} {value : α} :
    (t.erase key).get? other = some value ↔ other ≠ key ∧ t.get? other = some value := by
  rw [get?_erase]
  by_cases h : other = key <;> simp [h]

theorem get?_set (t : Table κ α) (key other : κ) (value : α) :
    (t.set key value).get? other = if other = key then some value else t.get? other := by
  by_cases h : other = key
  · subst h; simp [set, get?]
  · have := get?_erase t key other
    simp only [if_neg h] at this ⊢
    rw [← this]
    simp [set, get?, Ne.symm h]

theorem get?_modify (t : Table κ α) (key other : κ) (f : α → α) :
    (t.modify key f).get? other = if other = key then (t.get? key).map f else t.get? other := by
  unfold modify
  split
  · next value h => simp [get?_set, h]
  · next h => by_cases h' : other = key <;> simp_all

/-- A change of a value does not show in a view that it leaves alone. -/
theorem map_get?_modify {β : Type} (t : Table κ α) (key other : κ) {f : α → α} {view : α → β}
    (keeps : ∀ value, view (f value) = view value) :
    ((t.modify key f).get? other).map view = (t.get? other).map view := by
  rw [get?_modify]
  split
  · next same => rw [same]; cases t.get? key <;> simp [keeps]
  · rfl

theorem set_set (t : Table κ α) (key : κ) (value value' : α) :
    (t.set key value).set key value' = t.set key value' := by
  refine eq_of_entries ?_
  simp [set, erase]

/-- The entries of a table are its view. -/
theorem mem_entries_iff (t : Table κ α) (key : κ) (value : α) :
    (key, value) ∈ t.entries ↔ t.get? key = some value := by
  obtain ⟨l, nodup⟩ := t
  simp only [get?]
  induction l with
  | nil => simp
  | cons e rest ih =>
    obtain ⟨fresh, nodup⟩ := List.nodup_cons.mp nodup
    by_cases h : e.1 = key
    · subst h
      have : ∀ v, (e.1, v) ∉ rest := fun v hv => fresh (List.mem_map.mpr ⟨_, hv, rfl⟩)
      simp [this, Prod.ext_iff, eq_comm]
    · have : (key, value) ≠ e := fun he => h (he ▸ rfl)
      simp [h, this, ih nodup]

/-! ## Totals -/

section

variable {t : Table κ α} {key : κ} {value : α} (weight : α → Nat)

theorem total_set (t : Table κ α) (key : κ) (value : α) (weight : α → Nat) :
    (t.set key value).total weight = weight value + (t.erase key).total weight := rfl

theorem total_erase (h : t.get? key = some value) :
    weight value + (t.erase key).total weight = t.total weight := by
  have mem := (mem_entries_iff t key value).mpr h
  obtain ⟨l, nodup⟩ := t
  simp only [total, erase] at mem ⊢
  clear h
  induction l with
  | nil => cases mem
  | cons e rest ih =>
    obtain ⟨fresh, nodup⟩ := List.nodup_cons.mp nodup
    rcases List.mem_cons.mp mem with rfl | mem
    · have others : ∀ e ∈ rest, decide (e.1 ≠ key) = true := fun e mem =>
        decide_eq_true fun same => fresh (List.mem_map.mpr ⟨e, mem, same⟩)
      rw [List.filter_cons_of_neg (by simp), List.filter_eq_self.mpr others, load]
    · have other : e.1 ≠ key := fun same => fresh (List.mem_map.mpr ⟨_, mem, same.symm⟩)
      rw [List.filter_cons_of_pos (by simpa using other), load, load, ← ih nodup mem]
      exact Nat.add_left_comm ..

theorem weight_le_total (h : t.get? key = some value) : weight value ≤ t.total weight := by
  rw [← total_erase weight h]
  exact Nat.le_add_right ..

theorem total_eq_zero {weight : α → Nat}
    (none : ∀ key value, t.get? key = some value → weight value = 0) : t.total weight = 0 := by
  refine load_eq_zero ?_
  rintro ⟨key, value⟩ mem
  exact none key value ((mem_entries_iff t key value).mp mem)

end

/-! ## The number of keys -/

theorem erase_of_get?_none {t : Table κ α} {key : κ} (h : t.get? key = none) :
    t.erase key = t := by
  have absent : ∀ e ∈ t.entries, e.1 ≠ key := by
    intro e mem same
    have := (mem_entries_iff t key e.2).mp (same ▸ mem)
    rw [h] at this
    cases this
  have same : (t.erase key).entries = t.entries :=
    List.filter_eq_self.mpr fun e mem => decide_eq_true (absent e mem)
  exact eq_of_entries same

theorem size_erase {t : Table κ α} {key : κ} {value : α} (h : t.get? key = some value) :
    (t.erase key).size + 1 = t.size := by
  rw [size_eq_total, size_eq_total, ← total_erase _ h, Nat.add_comm]

theorem size_set (t : Table κ α) (key : κ) (value : α) :
    (t.set key value).size = (t.erase key).size + 1 := rfl

theorem size_set_of_none {t : Table κ α} {key : κ} (h : t.get? key = none) (value : α) :
    (t.set key value).size = t.size + 1 := by
  rw [size_set, erase_of_get?_none h]

theorem size_set_of_some {t : Table κ α} {key : κ} {old : α} (h : t.get? key = some old)
    (value : α) : (t.set key value).size = t.size := by
  rw [size_set, size_erase h]

/-! ## Parts of a table -/

def filter (t : Table κ α) (p : κ → α → Bool) : Table κ α :=
  ⟨t.entries.filter fun e => p e.1 e.2, (List.filter_sublist.map _).nodup t.nodup⟩

variable {t : Table κ α} {p : κ → α → Bool} {key : κ} {value : α}

theorem get?_filter (t : Table κ α) (p : κ → α → Bool) (key : κ) :
    (t.filter p).get? key = (t.get? key).filter (p key) := by
  refine Option.ext fun value => ?_
  rw [← mem_entries_iff, Option.filter_eq_some_iff, ← mem_entries_iff]
  exact List.mem_filter

theorem get?_filter_of_not (no : ∀ value, t.get? key = some value → p key value = false) :
    (t.filter p).get? key = none := by
  rw [get?_filter, Option.filter_eq_none_iff]
  intro value mem
  simp [no value mem]

theorem not_contains_filter (fresh : ¬ t.contains key = true) :
    ¬ (t.filter p).contains key = true := by
  simp [contains, get?_filter, get?_of_not_contains fresh]

theorem modify_of_none (absent : t.get? key = none) (f : α → α) : t.modify key f = t := by
  unfold modify
  rw [absent]

theorem erase_filter (t : Table κ α) (p : κ → α → Bool) (key : κ) :
    (t.filter p).erase key = (t.erase key).filter p := by
  refine eq_of_entries ?_
  simp only [filter, erase, List.filter_filter, Bool.and_comm]

theorem set_filter (keeps : p key value = true) :
    (t.filter p).set key value = (t.set key value).filter p := by
  have kept : ((t.set key value).filter p).entries =
      (key, value) :: ((t.erase key).filter p).entries :=
    List.filter_cons_of_pos (p := fun e : κ × α => p e.1 e.2) keeps
  refine eq_of_entries (Eq.trans ?_ kept.symm)
  exact congrArg (List.cons _ ·.entries) (erase_filter t p key)

theorem filter_erase_of_not (no : ∀ value, t.get? key = some value → p key value = false) :
    (t.erase key).filter p = t.filter p := by
  rw [← erase_filter, erase_of_get?_none (get?_filter_of_not no)]

/-- A value outside of the part may be set where none inside was. -/
theorem filter_set_of_not (drops : p key value = false)
    (no : ∀ value, t.get? key = some value → p key value = false) :
    (t.set key value).filter p = t.filter p := by
  have erased : (t.set key value).filter p = (t.erase key).filter p :=
    eq_of_entries (List.filter_cons_of_neg (p := fun e : κ × α => p e.1 e.2) (by simp [drops]))
  rw [erased, filter_erase_of_not no]

/-- A change that leaves values inside or outside is one of the part. -/
theorem modify_filter {f : α → α} (keeps : ∀ value, p key (f value) = p key value) :
    (t.filter p).modify key f = (t.modify key f).filter p := by
  cases at_key : t.get? key with
  | none => rw [modify_of_none at_key, modify_of_none (by simp [get?_filter, at_key])]
  | some value =>
    have changed : t.modify key f = t.set key (f value) := by simp [modify, at_key]
    rw [changed]
    by_cases inside : p key value = true
    · have found : (t.filter p).get? key = some value := by simp [get?_filter, at_key, inside]
      rw [← set_filter ((keeps value).trans inside)]
      simp [modify, found]
    · have outside : ∀ v, t.get? key = some v → p key v = false := by
        intro v mem
        rw [at_key] at mem
        cases mem
        simpa using inside
      rw [filter_set_of_not ((keeps value).trans (outside value at_key)) outside,
        modify_of_none (get?_filter_of_not outside)]

theorem filter_modify_of_not {f : α → α} (keeps : ∀ value, p key (f value) = p key value)
    (no : ∀ value, t.get? key = some value → p key value = false) :
    (t.modify key f).filter p = t.filter p := by
  rw [← modify_filter keeps, modify_of_none (get?_filter_of_not no)]

end Table

end CheckAgent
