import CheckAgent.Text.Utf8

/-!
# What is UTF-8

Decoding goes byte by byte and encoding character by character. They meet in **the forms of a
character** (`Spells`): one to four bytes, a leading byte with the highest bits of the code point
and, for every six bits more, a byte that follows.

**Main result** (`decode?_eq_some_iff`). The bytes that are read as a text are those that encode it.
So a sequence of bytes is UTF-8 just if it encodes some text.
-/

namespace CheckAgent.Text.Utf8

open CheckAgent.Text

/-- The bytes that stand for a code point. -/
inductive Spells (n : Nat) : Bytes → Prop where
  | one {a : UInt8} (ascii : n < 0x80) (lead : a.toNat = n) : Spells n [a]
  | two {a b : UInt8} (range : 0x80 ≤ n ∧ n < 0x800) (lead : a.toNat = 0xC0 + n / 64)
      (last : b.toNat = 0x80 + n % 64) : Spells n [a, b]
  | three {a b c : UInt8} (range : 0x800 ≤ n ∧ n < 0x10000) (whole : n < 0xD800 ∨ 0xDFFF < n)
      (lead : a.toNat = 0xE0 + n / 4096) (second : b.toNat = 0x80 + n / 64 % 64)
      (last : c.toNat = 0x80 + n % 64) : Spells n [a, b, c]
  | four {a b c d : UInt8} (range : 0x10000 ≤ n ∧ n < 0x110000)
      (lead : a.toNat = 0xF0 + n / 262144) (second : b.toNat = 0x80 + n / 4096 % 64)
      (third : c.toNat = 0x80 + n / 64 % 64) (last : d.toNat = 0x80 + n % 64) :
      Spells n [a, b, c, d]

variable {n : Nat} {bs bs' rest : Bytes}

theorem Spells.unique (spells : Spells n bs) (spells' : Spells n bs') : bs = bs' := by
  cases spells with
  | one ascii lead =>
    cases spells' with
    | one _ lead' => rw [UInt8.toNat_inj.mp (lead.trans lead'.symm)]
    | two range | three range | four range => omega
  | two range lead last =>
    cases spells' with
    | two _ lead' last' =>
      rw [UInt8.toNat_inj.mp (lead.trans lead'.symm), UInt8.toNat_inj.mp (last.trans last'.symm)]
    | one ascii => omega
    | three range' | four range' => omega
  | three range whole lead second last =>
    cases spells' with
    | three _ _ lead' second' last' =>
      rw [UInt8.toNat_inj.mp (lead.trans lead'.symm),
        UInt8.toNat_inj.mp (second.trans second'.symm), UInt8.toNat_inj.mp (last.trans last'.symm)]
    | one ascii => omega
    | two range' | four range' => omega
  | four range lead second third last =>
    cases spells' with
    | four _ lead' second' third' last' =>
      rw [UInt8.toNat_inj.mp (lead.trans lead'.symm),
        UInt8.toNat_inj.mp (second.trans second'.symm),
        UInt8.toNat_inj.mp (third.trans third'.symm), UInt8.toNat_inj.mp (last.trans last'.symm)]
    | one ascii => omega
    | two range' | three range' => omega

theorem Spells.isValidChar (spells : Spells n bs) : n.isValidChar := by
  unfold Nat.isValidChar
  cases spells with
  | one ascii => omega
  | two range | three range | four range => omega

theorem toNat_ofNat_of_valid (valid : n.isValidChar) : (Char.ofNat n).toNat = n := by
  unfold Char.ofNat
  rw [dif_pos valid]
  rfl

/-! ## Writing -/

theorem encodeChar_spells (c : Char) : Spells c.toNat (String.utf8EncodeChar c) := by
  have valid : c.toNat < 0xD800 ∨ 0xDFFF < c.toNat ∧ c.toNat < 0x110000 := c.valid
  have value : c.val.toNat = c.toNat := rfl
  unfold String.utf8EncodeChar
  dsimp only
  rw [value]
  generalize c.toNat = n at valid
  by_cases one : n ≤ 0x7F
  · rw [if_pos one]
    refine .one (by omega) ?_
    simp only [UInt8.toNat_ofNat']
    omega
  · rw [if_neg one]
    by_cases two : n ≤ 0x7FF
    · rw [if_pos two]
      refine .two (by omega) ?_ ?_ <;> simp only [UInt8.toNat_ofNat'] <;> omega
    · rw [if_neg two]
      by_cases three : n ≤ 0xFFFF
      · rw [if_pos three]
        refine .three (by omega) (by omega) ?_ ?_ ?_ <;> simp only [UInt8.toNat_ofNat'] <;> omega
      · rw [if_neg three]
        refine .four (by omega) ?_ ?_ ?_ ?_ <;> simp only [UInt8.toNat_ofNat'] <;> omega

/-- Whatever spells a character is what is written for it. -/
theorem Spells.eq_encodeChar {c : Char} (spells : Spells c.toNat bs) :
    bs = String.utf8EncodeChar c := spells.unique (encodeChar_spells c)

/-! ## Reading one character -/

theorem lead?_of_one {b : Nat} (ascii : b < 0x80) : lead? b = some ⟨0, 0, 0, b⟩ := if_pos ascii

theorem lead?_of_two {b : Nat} (range : 0xC2 ≤ b ∧ b < 0xE0) :
    lead? b = some ⟨1, 0x80, 0xBF, b - 0xC0⟩ := by
  unfold lead?
  rw [if_neg (by omega), if_neg (by omega), if_pos range.2]

/-- The second of three bytes excludes overlong forms and surrogates. -/
theorem lead?_of_three {b : Nat} (range : 0xE0 ≤ b ∧ b < 0xF0) :
    lead? b = some ⟨2, if b = 0xE0 then 0xA0 else 0x80, if b = 0xED then 0x9F else 0xBF,
      b - 0xE0⟩ := by
  unfold lead?
  rw [if_neg (by omega), if_neg (by omega), if_neg (by omega)]
  by_cases overlong : b = 0xE0
  · subst overlong
    rfl
  · by_cases surrogate : b = 0xED
    · subst surrogate
      rfl
    · rw [if_neg overlong, if_neg surrogate, if_pos range.2, if_neg overlong, if_neg surrogate]

/-- The second of four bytes excludes overlong forms and what is beyond the last code point. -/
theorem lead?_of_four {b : Nat} (range : 0xF0 ≤ b ∧ b < 0xF5) :
    lead? b = some ⟨3, if b = 0xF0 then 0x90 else 0x80, if b = 0xF4 then 0x8F else 0xBF,
      b - 0xF0⟩ := by
  obtain rfl | rfl | rfl | rfl | rfl : b = 0xF0 ∨ b = 0xF1 ∨ b = 0xF2 ∨ b = 0xF3 ∨ b = 0xF4 := by
    omega
  all_goals rfl

theorem lead?_of_none {b : Nat} (range : 0x80 ≤ b ∧ b < 0xC2 ∨ 0xF5 ≤ b) : lead? b = none := by
  unfold lead?
  rcases range with range | range
  · rw [if_neg (by omega), if_pos range.2]
  · rw [if_neg (by omega), if_neg (by omega), if_neg (by omega), if_neg (by omega),
      if_neg (by omega), if_neg (by omega), if_neg (by omega), if_neg (by omega), if_neg (by omega)]

theorem following_succ_eq_some_iff {k low high acc v : Nat} :
    following (k + 1) low high acc bs = (some v, rest) ↔ ∃ b more, bs = b :: more ∧
      (low ≤ b.toNat ∧ b.toNat ≤ high) ∧
        following k 0x80 0xBF (acc * 64 + b.toNat % 64) more = (some v, rest) := by
  cases bs with
  | nil => simp [following]
  | cons b more =>
    constructor
    · intro reads
      unfold following at reads
      split at reads
      · next fits => exact ⟨b, more, rfl, fits, reads⟩
      · cases reads
    · rintro ⟨b', more', same, fits, reads⟩
      cases same
      unfold following
      rw [if_pos fits]
      exact reads

theorem following_zero_eq_some_iff {low high acc v : Nat} :
    following 0 low high acc bs = (some v, rest) ↔ acc = v ∧ bs = rest := by
  simp [following]

/-- The bytes that are read after a leading byte spell the code point together with it. -/
theorem spells_of_following {a : UInt8} {l : Lead} (lead : lead? a.toNat = some l)
    (reads : following l.follow l.low l.high l.bits bs = (some n, rest)) :
    ∃ tail, bs = tail ++ rest ∧ Spells n (a :: tail) := by
  have forms : a.toNat < 0x80 ∨ (0x80 ≤ a.toNat ∧ a.toNat < 0xC2 ∨ 0xF5 ≤ a.toNat) ∨
      (0xC2 ≤ a.toNat ∧ a.toNat < 0xE0) ∨ (0xE0 ≤ a.toNat ∧ a.toNat < 0xF0) ∨
      (0xF0 ≤ a.toNat ∧ a.toNat < 0xF5) := by omega
  rcases forms with one | none | two | three | four
  · rw [lead?_of_one one] at lead
    cases lead
    obtain ⟨rfl, all⟩ := following_zero_eq_some_iff.mp reads
    exact ⟨[], all, .one one rfl⟩
  · rw [lead?_of_none none] at lead
    cases lead
  · rw [lead?_of_two two] at lead
    cases lead
    dsimp only at reads
    obtain ⟨b, _, rfl, fits, reads⟩ := following_succ_eq_some_iff.mp reads
    obtain ⟨value, rfl⟩ := following_zero_eq_some_iff.mp reads
    refine ⟨[b], rfl, .two ?_ ?_ ?_⟩ <;> omega
  · rw [lead?_of_three three] at lead
    cases lead
    dsimp only at reads
    obtain ⟨b, _, rfl, fits, reads⟩ := following_succ_eq_some_iff.mp reads
    obtain ⟨c, _, rfl, fits', reads⟩ := following_succ_eq_some_iff.mp reads
    obtain ⟨value, rfl⟩ := following_zero_eq_some_iff.mp reads
    refine ⟨[b, c], rfl, .three ?_ ?_ ?_ ?_ ?_⟩ <;> split at fits <;> split at fits <;> omega
  · rw [lead?_of_four four] at lead
    cases lead
    dsimp only at reads
    obtain ⟨b, _, rfl, fits, reads⟩ := following_succ_eq_some_iff.mp reads
    obtain ⟨c, _, rfl, fits', reads⟩ := following_succ_eq_some_iff.mp reads
    obtain ⟨d, _, rfl, fits'', reads⟩ := following_succ_eq_some_iff.mp reads
    obtain ⟨value, rfl⟩ := following_zero_eq_some_iff.mp reads
    refine ⟨[b, c, d], rfl, .four ?_ ?_ ?_ ?_ ?_⟩ <;> split at fits <;> split at fits <;> omega

theorem Spells.following_eq {a : UInt8} {tail : Bytes} (spells : Spells n (a :: tail))
    (rest : Bytes) : ∃ l, lead? a.toNat = some l ∧
      following l.follow l.low l.high l.bits (tail ++ rest) = (some n, rest) := by
  cases spells with
  | one ascii lead =>
    exact ⟨_, lead?_of_one (lead ▸ ascii),
      following_zero_eq_some_iff.mpr ⟨lead, rfl⟩⟩
  | two range lead last =>
    refine ⟨_, lead?_of_two (by omega), following_succ_eq_some_iff.mpr ⟨_, _, rfl, ?_,
      following_zero_eq_some_iff.mpr ⟨?_, rfl⟩⟩⟩ <;> dsimp only <;> omega
  | three range whole lead second last =>
    refine ⟨_, lead?_of_three (by omega), following_succ_eq_some_iff.mpr ⟨_, _, rfl, ?_,
      following_succ_eq_some_iff.mpr ⟨_, _, rfl, by omega,
        following_zero_eq_some_iff.mpr ⟨?_, rfl⟩⟩⟩⟩
    · dsimp only
      split <;> split <;> omega
    · dsimp only
      omega
  | four range lead second third last =>
    refine ⟨_, lead?_of_four (by omega), following_succ_eq_some_iff.mpr ⟨_, _, rfl, ?_,
      following_succ_eq_some_iff.mpr ⟨_, _, rfl, by omega, following_succ_eq_some_iff.mpr
        ⟨_, _, rfl, by omega, following_zero_eq_some_iff.mpr ⟨?_, rfl⟩⟩⟩⟩⟩
    · dsimp only
      split <;> split <;> omega
    · dsimp only
      omega

/-- A character is read from the front of some bytes if they begin with what is written for it. -/
theorem next_eq_some_iff {a : UInt8} {c : Char} :
    next a bs = (some c, rest) ↔ a :: bs = String.utf8EncodeChar c ++ rest := by
  unfold next
  constructor
  · intro reads
    cases lead : lead? a.toNat with
    | none =>
      rw [lead] at reads
      cases reads
    | some l =>
      rw [lead] at reads
      obtain ⟨value, left⟩ := Prod.ext_iff.mp reads
      obtain ⟨n, code, character⟩ := Option.map_eq_some_iff.mp value
      obtain ⟨tail, rfl, spells⟩ := spells_of_following lead (Prod.ext code left)
      have same : n = c.toNat := by
        rw [← character, toNat_ofNat_of_valid spells.isValidChar]
      rw [same] at spells
      exact congrArg (· ++ rest) spells.eq_encodeChar
  · intro split
    have spells := encodeChar_spells c
    generalize String.utf8EncodeChar c = written at spells split
    cases written with
    | nil => cases spells
    | cons b tail =>
      obtain ⟨rfl, same⟩ := List.cons.inj split
      replace same : bs = tail ++ rest := same
      obtain ⟨l, lead, reads⟩ := spells.following_eq rest
      rw [lead, same]
      dsimp only
      rw [reads, Option.map_some, Char.ofNat_toNat]

/-! ## Reading a text -/

theorem decode?_nil : decode? [] = some [] := by
  unfold decode? units
  rfl

theorem decode?_cons (a : UInt8) (bs : Bytes) : decode? (a :: bs) =
    (next a bs).1.bind fun c => (decode? (next a bs).2).map (c :: ·) := by
  unfold decode?
  rw [units, List.mapM_cons]
  cases (next a bs).1 with
  | none => rfl
  | some c => cases (units (next a bs).2).mapM id <;> rfl

/-- **What is read as a text is what encodes it.** -/
theorem decode?_eq_some_iff {cs : List Char} : decode? bs = some cs ↔ bs = encode cs := by
  induction cs generalizing bs with
  | nil =>
    cases bs with
    | nil => simp [decode?_nil, encode]
    | cons a bs =>
      rw [decode?_cons]
      simp [encode, Option.bind_eq_some_iff]
  | cons c cs ih =>
    have parts : encode (c :: cs) = String.utf8EncodeChar c ++ encode cs := rfl
    rw [parts]
    cases bs with
    | nil =>
      have some_bytes : String.utf8EncodeChar c ≠ [] := by
        intro none
        have spells := encodeChar_spells c
        rw [none] at spells
        cases spells
      simp [decode?_nil, some_bytes]
    | cons a bs =>
      rw [← next_eq_some_iff, decode?_cons]
      generalize next a bs = out
      obtain ⟨unit, rest⟩ := out
      cases unit with
      | none => simp
      | some d =>
        rw [Option.bind_some, Option.map_eq_some_iff, Prod.mk.injEq, Option.some.injEq]
        constructor
        · intro reads
          obtain ⟨_, read, rfl, rfl⟩ := reads
          exact ⟨rfl, ih.mp read⟩
        · intro written
          obtain ⟨rfl, read⟩ := written
          exact ⟨cs, ih.mpr read, rfl⟩

@[simp] theorem encode_append (cs ds : List Char) : encode (cs ++ ds) = encode cs ++ encode ds :=
  List.flatMap_append

/-- Of what spells a character, only a byte that stands alone is one of ASCII. -/
theorem Spells.alone_of_ascii {front : Bytes} {a : UInt8} (spells : Spells n (front ++ [a]))
    (ascii : a.toNat < 0x80) : front = [] ∧ a.toNat = n := by
  have last : (front ++ [a]).getLast? = some a := List.getLast?_concat ..
  generalize whole : front ++ [a] = bs at spells last
  cases spells with
  | one _ lead =>
    obtain ⟨nothing, same⟩ := List.append_eq_singleton_iff.mp whole |>.resolve_right (by simp)
    cases same
    exact ⟨nothing, lead⟩
  | @two _ b | @three _ _ b | @four _ _ _ b =>
    have same : b = a := Option.some.inj last
    subst same
    omega

theorem decode?_concat_of_ascii {a : UInt8} {c : Char} (value : c.toNat = a.toNat)
    (ascii : a.toNat < 0x80) (bs : Bytes) :
    decode? (bs ++ [a]) = (decode? bs).map (· ++ [c]) := by
  have written : encode [c] = [a] := by
    have spells : Spells c.toNat [a] := .one (value ▸ ascii) value.symm
    simp [encode, ← spells.eq_encodeChar]
  ext cs
  rw [Option.map_eq_some_iff, decode?_eq_some_iff]
  constructor
  · intro whole
    rcases List.eq_nil_or_concat cs with rfl | ⟨cs, d, rfl⟩
    · simp [encode] at whole
    · have spells := encodeChar_spells d
      have last : encode [d] = String.utf8EncodeChar d := by simp [encode]
      rw [List.concat_eq_append, encode_append, last] at whole
      generalize String.utf8EncodeChar d = bytes at spells whole
      rcases List.eq_nil_or_concat bytes with rfl | ⟨front, b, rfl⟩
      · cases spells
      · rw [List.concat_eq_append] at spells whole
        rw [← List.append_assoc] at whole
        obtain ⟨before, same⟩ := List.append_inj' whole rfl
        cases same
        obtain ⟨rfl, code⟩ := spells.alone_of_ascii ascii
        have same : d = c := Char.toNat_inj.mp (code.symm.trans value.symm)
        rw [List.append_nil] at before
        exact ⟨cs, decode?_eq_some_iff.mpr before, by rw [same, List.concat_eq_append]⟩
  · rintro ⟨cs, read, rfl⟩
    rw [encode_append, written, decode?_eq_some_iff.mp read]

end CheckAgent.Text.Utf8
