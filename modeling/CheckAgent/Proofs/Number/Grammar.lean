import Mathlib.Data.List.TakeWhile
import CheckAgent.Proofs.Number.Digits

/-!
# Texts of numbers

What a text has to look like to be read as a number, told apart from how it is read. A whole number
is written in digits, maybe behind a plus sign (`Unsigned.Denotes`). A fraction has a sign or none,
digits with a point before, between or behind them, and maybe an exponent (`Numeral`); or it is an
infinity or `nan`, which are words in any case.

Main results: `Unsigned.read_eq_ok_iff` and `Decimal.readBinary?_eq_some_iff`.
-/

namespace CheckAgent.Number

variable {cs : List Char} {n : Nat}

/-! ## The grammar -/

/-- Digits, at least one, and the number that they stand for. -/
structure IsDecimal (cs : List Char) (n : Nat) : Prop where
  some_digit : cs ≠ []
  digits : ∀ c ∈ cs, c.isDigit = true
  value : Nat.ofDigitChars 10 cs 0 = n

/-- A text with a sign in front, or with none. -/
inductive Signed : Bool → List Char → List Char → Prop
  | bare (cs : List Char) : Signed false cs cs
  | plus (cs : List Char) : Signed false cs ('+' :: cs)
  | minus (cs : List Char) : Signed true cs ('-' :: cs)

/-- A whole number with a sign or with none. -/
def Integer (cs : List Char) (x : Int) : Prop :=
  ∃ negative ds, Signed negative ds cs ∧
    ∃ n : Nat, IsDecimal ds n ∧ (if negative then -(n : Int) else n) = x

/-- The exponent at the end of a number, which may be absent. -/
inductive Exponent : List Char → Int → Prop
  | absent : Exponent [] 0
  | present {mark : Char} {cs : List Char} {x : Int} (marked : mark = 'e' ∨ mark = 'E')
    (integer : Integer cs x) : Exponent (mark :: cs) x

/-- A number without a sign, and the decimal that it stands for. -/
inductive Numeral : List Char → Decimal → Prop
  | whole {ds tail : List Char} {n : Nat} {x : Int} (decimal : IsDecimal ds n)
    (exponent : Exponent tail x) : Numeral (ds ++ tail) ⟨n, x⟩
  | pointed {ds places tail : List Char} {n : Nat} {x : Int} (decimal : IsDecimal (ds ++ places) n)
    (exponent : Exponent tail x) :
    Numeral (ds ++ '.' :: (places ++ tail)) ⟨n, -places.length + x⟩

/-- A fraction without its sign, and the value that it stands for. -/
inductive Magnitude (f : Format) (negative : Bool) : List Char → Binary → Prop
  | infinite {cs : List Char}
    (word : cs.map Char.toLower = "inf".toList ∨ cs.map Char.toLower = "infinity".toList) :
    Magnitude f negative cs (.infinite negative)
  | nan {cs : List Char} (word : cs.map Char.toLower = "nan".toList) : Magnitude f negative cs .nan
  | numeral {cs : List Char} {d : Decimal} (numeral : Numeral cs d) :
    Magnitude f negative cs (d.toBinary f negative)

/-- A fraction, and the value of the format that it stands for. -/
def Fraction (f : Format) (cs : List Char) (b : Binary) : Prop :=
  ∃ negative body, Signed negative body cs ∧ Magnitude f negative body b

/-! ## Signs -/

/-- A text divided into its sign and the rest. -/
def unsign : List Char → Bool × List Char
  | '-' :: body => (true, body)
  | '+' :: body => (false, body)
  | body => (false, body)

theorem signed_unsign (cs : List Char) : Signed (unsign cs).1 (unsign cs).2 cs := by
  unfold unsign
  split
  · exact .minus _
  · exact .plus _
  · exact .bare _

/-- What does not begin with a sign itself is the rest of a text behind its sign. -/
theorem Signed.eq_unsign {negative : Bool} {body : List Char} (sign : Signed negative body cs)
    (unsigned : ∀ c ∈ body.head?, c ≠ '+' ∧ c ≠ '-') : (negative, body) = unsign cs := by
  cases sign with
  | plus | minus => rfl
  | bare =>
    unfold unsign
    split
    · exact absurd rfl (unsigned _ rfl).2
    · exact absurd rfl (unsigned _ rfl).1
    · rfl

/-- Where a text cannot begin with a sign, there is one way to take a sign away. -/
theorem exists_signed_iff {P : Bool → List Char → Prop}
    (unsigned : ∀ negative body, P negative body → ∀ c ∈ body.head?, c ≠ '+' ∧ c ≠ '-') :
    (∃ negative body, Signed negative body cs ∧ P negative body) ↔
      P (unsign cs).1 (unsign cs).2 := by
  constructor
  · rintro ⟨negative, body, sign, holds⟩
    rwa [← sign.eq_unsign (unsigned negative body holds)]
  · exact fun holds => ⟨_, _, signed_unsign cs, holds⟩

theorem IsDecimal.unsigned (decimal : IsDecimal cs n) : ∀ c ∈ cs.head?, c ≠ '+' ∧ c ≠ '-' := by
  intro c first
  have digit := decimal.digits c (List.mem_of_mem_head? first)
  constructor <;> rintro rfl <;> cases digit

/-! ## Whole numbers -/

namespace Unsigned

variable {max acc : Nat}

/-- A text of digits, with a plus sign or without one, stands for a number. -/
def Denotes (cs : List Char) (n : Nat) : Prop := ∃ ds, Signed false ds cs ∧ IsDecimal ds n

/-- Digits are read as the number that they continue, if that is in the range. -/
theorem digits_eq_ok_iff (small : acc ≤ max) :
    digits max acc cs = .ok n ↔
      (∀ c ∈ cs, c.isDigit = true) ∧ Nat.ofDigitChars 10 cs acc = n ∧ n ≤ max := by
  induction cs generalizing acc with
  | nil =>
    simp only [digits, Except.ok.injEq, Nat.ofDigitChars_nil]
    exact ⟨fun same => ⟨List.forall_mem_nil _, same, same ▸ small⟩, fun reads => reads.2.1⟩
  | cons c rest ih =>
    rw [List.forall_mem_cons, Nat.ofDigitChars_cons, Nat.mul_comm]
    cases digit : c.isDigit with
    | false => simp [digits, digit?_of_not digit]
    | true =>
      simp only [digits, digit?_of_isDigit digit, true_and]
      split
      · next large =>
        -- what follows makes the number only larger
        have grows := le_ofDigitChars rest (acc * 10 + (c.toNat - '0'.toNat))
        simp only [reduceCtorEq, false_iff, not_and]
        omega
      · next fits => exact ih (Nat.le_of_not_lt fits)

theorem digits_zero_eq_ok_iff (some_digit : cs ≠ []) :
    digits max 0 cs = .ok n ↔ IsDecimal cs n ∧ n ≤ max := by
  rw [digits_eq_ok_iff (Nat.zero_le max)]
  exact ⟨fun ⟨digits, value, fits⟩ => ⟨⟨some_digit, digits, value⟩, fits⟩,
    fun ⟨⟨_, digits, value⟩, fits⟩ => ⟨digits, value, fits⟩⟩

theorem denotes_plus {ds : List Char} : Denotes ('+' :: ds) n ↔ IsDecimal ds n := by
  constructor
  · rintro ⟨_, _ | _, decimal⟩
    · exact absurd (decimal.digits '+' List.mem_cons_self) (by decide)
    · exact decimal
  · exact fun decimal => ⟨ds, .plus ds, decimal⟩

theorem denotes_bare (bare : ∀ ds, cs ≠ '+' :: ds) : Denotes cs n ↔ IsDecimal cs n := by
  constructor
  · rintro ⟨ds, _ | _, decimal⟩
    · exact decimal
    · exact absurd rfl (bare ds)
  · exact fun decimal => ⟨cs, .bare cs, decimal⟩

/-- **What is read as a whole number of a range.** -/
theorem read_eq_ok_iff : read max cs = .ok n ↔ Denotes cs n ∧ n ≤ max := by
  have empty : ¬ IsDecimal [] n := fun decimal => decimal.some_digit rfl
  unfold read
  split
  · next c rest => rw [denotes_plus, digits_zero_eq_ok_iff (List.cons_ne_nil c rest)]
  · simp [denotes_plus, empty]
  · simp [denotes_bare, empty]
  · next signed lone some_digit =>
    have bare : ∀ ds, cs ≠ '+' :: ds := by
      rintro (_ | ⟨c, rest⟩) rfl
      · exact lone rfl
      · exact signed c rest rfl
    rw [denotes_bare bare, digits_zero_eq_ok_iff some_digit]

theorem Denotes.unique {m : Nat} (denotes : Denotes cs n) (denotes' : Denotes cs m) : n = m := by
  have reads := read_eq_ok_iff.mpr ⟨denotes, Nat.le_max_left n m⟩
  have reads' := read_eq_ok_iff.mpr ⟨denotes', Nat.le_max_right n m⟩
  exact Except.ok.inj (reads.symm.trans reads')

end Unsigned

/-! ## Fractions -/

theorem Exponent.stops {tail : List Char} {x : Int} (exponent : Exponent tail x) :
    ∀ c ∈ tail.head?, c.isDigit = false := by
  cases exponent with
  | absent => simp
  | present marked _ => rcases marked with rfl | rfl <;> simp

theorem Exponent.bare {tail more : List Char} {x : Int} (exponent : Exponent tail x) :
    tail ≠ '.' :: more := by
  rintro rfl
  cases exponent with
  | present marked _ => simp at marked

/-- What becomes a letter in lower case is behind the signs, the point and the digits. -/
theorem le_of_toLower {c : Char} (letter : 97 ≤ c.toLower.toNat) : 65 ≤ c.toNat := by
  refine Nat.le_of_not_lt fun low => ?_
  have same : c.toLower = c := by
    refine dif_neg fun upper => ?_
    have := UInt32.le_iff_toNat_le.mp upper.1
    exact absurd low (Nat.not_lt_of_le this)
  rw [same] at letter
  omega

theorem letter_of_word {word : List Char} (same : cs.map Char.toLower = word)
    (lower : ∃ c ∈ word.head?, 97 ≤ c.toNat) : ∃ c ∈ cs.head?, 65 ≤ c.toNat := by
  subst same
  cases cs with
  | nil => simp at lower
  | cons c rest => exact ⟨c, rfl, le_of_toLower (by simpa using lower)⟩

theorem Numeral.begins {d : Decimal} (numeral : Numeral cs d) :
    ∃ c ∈ cs.head?, c.isDigit = true ∨ c = '.' := by
  cases numeral with
  | @whole ds tail n x decimal exponent =>
    obtain ⟨c, rest, rfl⟩ := List.exists_cons_of_ne_nil decimal.some_digit
    exact ⟨c, rfl, .inl (decimal.digits c List.mem_cons_self)⟩
  | @pointed ds places tail n x decimal exponent =>
    cases ds with
    | nil => exact ⟨'.', rfl, .inr rfl⟩
    | cons c rest => exact ⟨c, rfl, .inl (decimal.digits c List.mem_cons_self)⟩

theorem Numeral.not_word {d : Decimal} {word : List Char} (numeral : Numeral cs d)
    (lower : ∃ c ∈ word.head?, 97 ≤ c.toNat) : cs.map Char.toLower ≠ word := by
  intro same
  obtain ⟨c, first, letter⟩ := letter_of_word same lower
  obtain ⟨c', first', digit | rfl⟩ := numeral.begins
  all_goals obtain rfl := Option.mem_unique first first'
  · have bounds : 48 ≤ c.toNat ∧ c.toNat ≤ 57 := by
      simpa [Char.isDigit, UInt32.le_iff_toNat_le] using digit
    omega
  · exact absurd letter (by decide)

theorem Magnitude.unsigned {f : Format} {negative : Bool} {b : Binary}
    (magnitude : Magnitude f negative cs b) : ∀ c ∈ cs.head?, c ≠ '+' ∧ c ≠ '-' := by
  have of_letter (word : ∃ c ∈ cs.head?, 65 ≤ c.toNat) : ∀ c ∈ cs.head?, c ≠ '+' ∧ c ≠ '-' := by
    intro c first
    obtain ⟨c', first', letter⟩ := word
    obtain rfl := Option.mem_unique first first'
    constructor <;> rintro rfl <;> exact absurd letter (by decide)
  cases magnitude with
  | infinite word =>
    rcases word with same | same
    all_goals exact of_letter (letter_of_word same ⟨'i', rfl, by decide⟩)
  | nan same => exact of_letter (letter_of_word same ⟨'n', rfl, by decide⟩)
  | numeral numeral =>
    intro c first
    obtain ⟨c', first', digit | rfl⟩ := numeral.begins
    all_goals obtain rfl := Option.mem_unique first first'
    · constructor <;> rintro rfl <;> cases digit
    · decide

namespace Decimal

variable {d : Decimal} {x : Int} {ds places tail : List Char}

/-- The digits at the front of any text, and the rest. -/
theorem exists_span (cs : List Char) : ∃ ds rest, cs = ds ++ rest ∧
    (∀ c ∈ ds, c.isDigit = true) ∧ (∀ c ∈ rest.head?, c.isDigit = false) := by
  refine ⟨cs.takeWhile Char.isDigit, cs.dropWhile Char.isDigit,
    List.takeWhile_append_dropWhile.symm, fun c => List.mem_takeWhile_imp, fun c first => ?_⟩
  have stops := List.head?_dropWhile_not Char.isDigit cs
  rwa [Option.mem_def.mp first] at stops

theorem isDecimal_append (digits : ∀ c ∈ ds, c.isDigit = true)
    (stop : ∀ c ∈ tail.head?, c.isDigit = false) :
    IsDecimal (ds ++ tail) n ↔ ds ≠ [] ∧ tail = [] ∧ Nat.ofDigitChars 10 ds 0 = n := by
  cases tail with
  | nil =>
    rw [List.append_nil]
    exact ⟨fun ⟨some_digit, _, value⟩ => ⟨some_digit, rfl, value⟩,
      fun ⟨some_digit, _, value⟩ => ⟨some_digit, digits, value⟩⟩
  | cons c rest =>
    have other : ¬ IsDecimal (ds ++ c :: rest) n := fun decimal => by
      have digit := decimal.digits c (by simp)
      rw [stop c rfl] at digit
      cases digit
    simp [other]

/-- What is read of an exponent behind its sign. -/
def integer? (negative : Bool) (cs : List Char) : Option Int :=
  match spanDigits cs with
  | ([], _) => none
  | (ds, []) => some (if negative then -(ofDigits ds : Int) else ofDigits ds)
  | _ => none

theorem integer?_eq_some_iff {negative : Bool} : integer? negative cs = some x ↔
    ∃ n : Nat, IsDecimal cs n ∧ (if negative then -(n : Int) else n) = x := by
  obtain ⟨ds, rest, rfl, digits, stop⟩ := exists_span cs
  simp only [integer?, spanDigits_append digits stop, isDecimal_append digits stop]
  cases ds <;> cases rest <;> simp [← ofDigits_map]

theorem readExponent?_eq_some_iff : readExponent? cs = some x ↔ Integer cs x := by
  rw [Integer, exists_signed_iff fun _ _ ⟨_, decimal, _⟩ => decimal.unsigned]
  exact integer?_eq_some_iff

theorem tail_iff {m : Nat} {k : Int} :
    (match tail with
      | [] => some (⟨m, k⟩ : Decimal)
      | c :: r => if c = 'e' ∨ c = 'E' then (readExponent? r).map fun x => ⟨m, k + x⟩
        else none) = some d ↔ ∃ x, Exponent tail x ∧ d = ⟨m, k + x⟩ := by
  cases tail with
  | nil =>
    constructor
    · intro reads
      cases reads
      exact ⟨0, .absent, by rw [Int.add_zero]⟩
    · rintro ⟨_, _ | _, rfl⟩
      rw [Int.add_zero]
  | cons c r =>
    rw [Option.ite_none_right_eq_some, Option.map_eq_some_iff]
    constructor
    · rintro ⟨marked, x, reads, rfl⟩
      exact ⟨x, .present marked (readExponent?_eq_some_iff.mp reads), rfl⟩
    · rintro ⟨x, _ | ⟨marked, integer⟩, rfl⟩
      exact ⟨marked, x, readExponent?_eq_some_iff.mpr integer, rfl⟩

theorem read?_whole (digits : ∀ c ∈ ds, c.isDigit = true)
    (stop : ∀ c ∈ tail.head?, c.isDigit = false) (bare : ∀ more, tail ≠ '.' :: more) :
    read? (ds ++ tail) = some d ↔ ds ≠ [] ∧ ∃ x, Exponent tail x ∧
      d = ⟨Nat.ofDigitChars 10 ds 0, x⟩ := by
  rw [read?, spanDigits_append digits stop]
  dsimp only
  split
  · exact absurd rfl (bare _)
  simp only [Option.ite_none_left_eq_some, List.append_nil, ofDigits_map]
  refine and_congr (by simp) (tail_iff.trans ?_)
  simp

theorem read?_pointed (digits : ∀ c ∈ ds, c.isDigit = true)
    (digits' : ∀ c ∈ places, c.isDigit = true) (stop : ∀ c ∈ tail.head?, c.isDigit = false) :
    read? (ds ++ '.' :: (places ++ tail)) = some d ↔ ds ++ places ≠ [] ∧ ∃ x, Exponent tail x ∧
      d = ⟨Nat.ofDigitChars 10 (ds ++ places) 0, -places.length + x⟩ := by
  have point : ∀ c ∈ ('.' :: (places ++ tail)).head?, c.isDigit = false := by simp
  rw [read?, spanDigits_append digits point]
  simp only [spanDigits_append digits' stop, Option.ite_none_left_eq_some, ← List.map_append,
    ofDigits_map, List.length_map]
  exact and_congr (by simp) tail_iff

theorem read?_eq_some_iff : read? cs = some d ↔ Numeral cs d := by
  constructor
  · intro reads
    obtain ⟨ds, rest, rfl, digits, stop⟩ := exists_span cs
    by_cases pointed : ∃ more, rest = '.' :: more
    · obtain ⟨more, rfl⟩ := pointed
      obtain ⟨places, tail, rfl, digits', stop'⟩ := exists_span more
      obtain ⟨some_digit, x, exponent, rfl⟩ := (read?_pointed digits digits' stop').mp reads
      have all : ∀ c ∈ ds ++ places, c.isDigit = true := fun c mem =>
        (List.mem_append.mp mem).elim (digits c) (digits' c)
      exact .pointed ⟨some_digit, all, rfl⟩ exponent
    · rw [not_exists] at pointed
      obtain ⟨some_digit, x, exponent, rfl⟩ := (read?_whole digits stop pointed).mp reads
      exact .whole ⟨some_digit, digits, rfl⟩ exponent
  · rintro (⟨⟨some_digit, digits, rfl⟩, exponent⟩ | ⟨⟨some_digit, digits, rfl⟩, exponent⟩)
    · exact (read?_whole digits exponent.stops fun _ => exponent.bare).mpr
        ⟨some_digit, _, exponent, rfl⟩
    · exact (read?_pointed (fun c mem => digits c (List.mem_append_left _ mem))
        (fun c mem => digits c (List.mem_append_right _ mem)) exponent.stops).mpr
          ⟨some_digit, _, exponent, rfl⟩

/-- What is read of a fraction behind its sign. -/
def magnitude? (f : Format) (negative : Bool) (cs : List Char) : Option Binary :=
  let word := String.ofList (cs.map Char.toLower)
  if word = "inf" ∨ word = "infinity" then some (.infinite negative)
  else if word = "nan" then some .nan
  else (read? cs).map (toBinary f negative)

theorem magnitude?_eq_some_iff {f : Format} {negative : Bool} {b : Binary} :
    magnitude? f negative cs = some b ↔ Magnitude f negative cs b := by
  simp only [magnitude?, String.ext_iff, String.toList_ofList]
  constructor
  · intro reads
    split at reads
    · next word =>
      cases reads
      exact .infinite word
    · split at reads
      · next word =>
        cases reads
        exact .nan word
      · obtain ⟨d, numeral, rfl⟩ := Option.map_eq_some_iff.mp reads
        exact .numeral (read?_eq_some_iff.mp numeral)
  · intro magnitude
    cases magnitude with
    | infinite word => rw [if_pos word]
    | nan word => simp [word]
    | numeral numeral =>
      have short : cs.map Char.toLower ≠ "inf".toList := numeral.not_word ⟨'i', rfl, by decide⟩
      have long : cs.map Char.toLower ≠ "infinity".toList :=
        numeral.not_word ⟨'i', rfl, by decide⟩
      have nan : cs.map Char.toLower ≠ "nan".toList := numeral.not_word ⟨'n', rfl, by decide⟩
      rw [if_neg (not_or.mpr ⟨short, long⟩), if_neg nan, read?_eq_some_iff.mpr numeral]
      rfl

/-- **What is read as a fraction.** -/
theorem readBinary?_eq_some_iff {f : Format} {b : Binary} :
    readBinary? f cs = some b ↔ Fraction f cs b := by
  rw [Fraction, exists_signed_iff fun _ _ magnitude => magnitude.unsigned]
  exact magnitude?_eq_some_iff

end Decimal

end CheckAgent.Number
