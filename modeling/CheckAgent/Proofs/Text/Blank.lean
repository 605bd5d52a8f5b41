import Mathlib.Data.List.TakeWhile
import CheckAgent.Text.Blank

/-!
# Padding and separators

Padding is what `trim` takes away, and a separator is where a text is split. Both are described from
the side of whoever writes the text: `trim_append` for a text with blanks around it, and
`splitLast?_eq_some_iff` and `splitFirst?_eq_some_iff` for one that is put together at a separator.
The two ways of splitting give the same just where the separator does not come twice.
-/

namespace CheckAgent.Text

theorem isBlank_of_isDigit {c : Char} (digit : c.isDigit = true) : isBlank c = false := by
  have bounds : 48 ≤ c.toNat ∧ c.toNat ≤ 57 := by
    simpa [Char.isDigit, UInt32.le_iff_toNat_le] using digit
  simp [isBlank]
  omega

theorem isBlank_of_capital {c : Char} (capital : 'A' ≤ c ∧ c ≤ 'Z') : isBlank c = false := by
  have bounds : 65 ≤ c.toNat ∧ c.toNat ≤ 90 := by
    simpa [Char.le_def, UInt32.le_iff_toNat_le] using capital
  simp [isBlank]
  omega

theorem trimLeft_append {before cs : List Char} (blank : ∀ c ∈ before, isBlank c = true)
    (first : ∀ c ∈ cs.head?, isBlank c = false) : trimLeft (before ++ cs) = cs := by
  rw [trimLeft, List.dropWhile_append_of_pos blank]
  cases cs with
  | nil => rfl
  | cons c rest => simp [first c rfl]

theorem trimLeft_of_head {cs : List Char} (first : ∀ c ∈ cs.head?, isBlank c = false) :
    trimLeft cs = cs :=
  @trimLeft_append [] cs (fun _ mem => nomatch mem) first

/-- Trimming takes away the blanks around a text that neither begins nor ends with one. -/
theorem trim_append {before body after : List Char}
    (blank : ∀ c ∈ before ++ after, isBlank c = true)
    (first : ∀ c ∈ body.head?, isBlank c = false) (last : ∀ c ∈ body.getLast?, isBlank c = false) :
    trim (before ++ (body ++ after)) = body := by
  have behind : ∀ c ∈ after, isBlank c = true := fun c mem =>
    blank c (List.mem_append_right _ mem)
  cases body with
  | nil =>
    have none : trimLeft (before ++ ([] ++ after)) = [] := by
      have all := @trimLeft_append (before ++ after) [] blank fun _ mem => nomatch mem
      simpa using all
    rw [trim, none]
    rfl
  | cons c rest =>
    have left : trimLeft (before ++ (c :: rest ++ after)) = c :: rest ++ after :=
      trimLeft_append (fun d mem => blank d (List.mem_append_left _ mem)) fun d mem => first d mem
    have right : trimLeft ((c :: rest ++ after).reverse) = (c :: rest).reverse := by
      rw [List.reverse_append]
      refine trimLeft_append (fun d mem => behind d (List.mem_reverse.mp mem)) fun d mem => ?_
      rw [List.head?_reverse] at mem
      exact last d mem
    rw [trim, left, trimRight]
    exact (congrArg List.reverse right).trans (List.reverse_reverse _)

theorem trim_concat {c : Char} (blank : isBlank c = true) (cs : List Char) :
    trim (cs ++ [c]) = trim cs := by
  unfold trim trimLeft
  rw [List.dropWhile_append]
  by_cases none : cs.dropWhile isBlank = []
  · simp [none, blank]
  · simp [none, blank, trimRight]

theorem trim_append_blank {after : List Char} (blank : ∀ c ∈ after, isBlank c = true)
    (cs : List Char) : trim (cs ++ after) = trim cs := by
  induction after generalizing cs with
  | nil => rw [List.append_nil]
  | cons c rest ih =>
    obtain ⟨first, blank⟩ := List.forall_mem_cons.mp blank
    rw [← List.singleton_append, ← List.append_assoc, ih blank, trim_concat first]

theorem trim_padded {before after : List Char} (blank : ∀ c ∈ before ++ after, isBlank c = true)
    (cs : List Char) : trim (before ++ (cs ++ after)) = trim cs := by
  obtain ⟨front, behind⟩ := List.forall_mem_append.mp blank
  rw [← trim_append_blank behind cs, trim, trimLeft, List.dropWhile_append_of_pos front]
  rfl

theorem trim_eq_nil_iff {cs : List Char} : trim cs = [] ↔ ∀ c ∈ cs, isBlank c = true := by
  constructor
  · intro nothing
    rw [trim, trimRight, List.reverse_eq_nil_iff, List.dropWhile_eq_nil_iff] at nothing
    intro c mem
    rw [← List.takeWhile_append_dropWhile (p := isBlank) (l := cs)] at mem
    rcases List.mem_append.mp mem with front | rest
    · exact List.mem_takeWhile_imp front
    · exact nothing c (List.mem_reverse.mpr rest)
  · exact fun blank => trim_append_blank blank []

theorem splitLast?_eq_none_iff {sep : Char} {cs : List Char} :
    splitLast? sep cs = none ↔ sep ∉ cs := by
  induction cs with
  | nil => simp [splitLast?]
  | cons c rest ih =>
    cases split : splitLast? sep rest with
    | none =>
      have absent := ih.mp split
      by_cases same : c = sep
      · simp [splitLast?, split, same]
      · simp [splitLast?, split, same, absent, Ne.symm same]
    | some parts =>
      have present : sep ∈ rest := by
        by_cases mem : sep ∈ rest
        · exact mem
        · rw [ih.mpr mem] at split
          cases split
      simp [splitLast?, split, present]

theorem splitLast?_append {sep : Char} {after : List Char} (before : List Char)
    (absent : sep ∉ after) : splitLast? sep (before ++ sep :: after) = some (before, after) := by
  induction before with
  | nil => simp [splitLast?, splitLast?_eq_none_iff.mpr absent]
  | cons c before ih => simp [splitLast?, ih]

theorem eq_of_splitLast? {sep : Char} {cs before after : List Char}
    (split : splitLast? sep cs = some (before, after)) :
    cs = before ++ sep :: after ∧ sep ∉ after := by
  induction cs generalizing before after with
  | nil => cases split
  | cons c rest ih =>
    rw [splitLast?] at split
    cases inner : splitLast? sep rest with
    | none =>
      rw [inner] at split
      dsimp only at split
      by_cases same : c = sep
      · rw [if_pos same] at split
        cases split
        exact ⟨by rw [same]; rfl, splitLast?_eq_none_iff.mp inner⟩
      · rw [if_neg same] at split
        cases split
    | some parts =>
      rw [inner] at split
      cases split
      obtain ⟨whole, absent⟩ := ih inner
      exact ⟨congrArg (c :: ·) whole, absent⟩

/-- Splitting at the last separator undoes putting a text together there. -/
theorem splitLast?_eq_some_iff {sep : Char} {cs before after : List Char} :
    splitLast? sep cs = some (before, after) ↔ cs = before ++ sep :: after ∧ sep ∉ after := by
  refine ⟨eq_of_splitLast?, ?_⟩
  rintro ⟨rfl, absent⟩
  exact splitLast?_append before absent

theorem splitFirst?_eq_none_iff {sep : Char} {cs : List Char} :
    splitFirst? sep cs = none ↔ sep ∉ cs := by
  induction cs with
  | nil => simp [splitFirst?]
  | cons c rest ih =>
    by_cases same : c = sep
    · simp [splitFirst?, same]
    · simp [splitFirst?, same, ih, Ne.symm same]

theorem splitFirst?_append {sep : Char} {before : List Char} (after : List Char)
    (absent : sep ∉ before) : splitFirst? sep (before ++ sep :: after) = some (before, after) := by
  induction before with
  | nil => simp [splitFirst?]
  | cons c before ih =>
    have other : c ≠ sep := fun same => absent (same ▸ List.mem_cons_self)
    have absent : sep ∉ before := fun mem => absent (List.mem_cons_of_mem c mem)
    simp [splitFirst?, other, ih absent]

theorem eq_of_splitFirst? {sep : Char} {cs before after : List Char}
    (split : splitFirst? sep cs = some (before, after)) :
    cs = before ++ sep :: after ∧ sep ∉ before := by
  induction cs generalizing before after with
  | nil => cases split
  | cons c rest ih =>
    rw [splitFirst?] at split
    by_cases same : c = sep
    · rw [if_pos same] at split
      cases split
      exact ⟨by rw [same]; rfl, List.not_mem_nil⟩
    · rw [if_neg same, Option.map_eq_some_iff] at split
      obtain ⟨parts, inner, eq⟩ := split
      cases eq
      obtain ⟨whole, absent⟩ := ih inner
      refine ⟨congrArg (c :: ·) whole, ?_⟩
      rw [List.mem_cons, not_or]
      exact ⟨Ne.symm same, absent⟩

theorem splitFirst?_eq_some_iff {sep : Char} {cs before after : List Char} :
    splitFirst? sep cs = some (before, after) ↔ cs = before ++ sep :: after ∧ sep ∉ before := by
  refine ⟨eq_of_splitFirst?, ?_⟩
  rintro ⟨rfl, absent⟩
  exact splitFirst?_append after absent

/-- The first separator is the last one just where it does not come twice. -/
theorem splitFirst?_eq_splitLast?_iff {sep : Char} {cs : List Char} :
    splitFirst? sep cs = splitLast? sep cs ↔ cs.count sep ≤ 1 := by
  cases first : splitFirst? sep cs with
  | none =>
    have absent := splitFirst?_eq_none_iff.mp first
    simp [splitLast?_eq_none_iff.mpr absent, List.count_eq_zero_of_not_mem absent]
  | some parts =>
    obtain ⟨before, after⟩ := parts
    obtain ⟨rfl, absent⟩ := splitFirst?_eq_some_iff.mp first
    rw [eq_comm, splitLast?_eq_some_iff, List.count_append, List.count_cons_self,
      List.count_eq_zero_of_not_mem absent]
    constructor
    · rintro ⟨-, single⟩
      simp [List.count_eq_zero_of_not_mem single]
    · intro once
      exact ⟨rfl, List.count_eq_zero.mp (by omega)⟩

end CheckAgent.Text
