import CheckAgent.Proofs.Time.Writing

/-!
# The zones that are accepted

A zone is meant to be a word of capitals or an offset `±HHMM` or `±HH:MM` of less than a day, with
minutes below sixty: the text of a `Zone`. **The reader accepts more** (`Accepts`). It looks at an
offset without its colons, wherever they stand, and bounds the offset as a whole, not its minutes.
What it reads is then the offset of the four digits.

**Main result** (`accepted_zone`). Behind the last space of a start time that is read stands a zone
of this grammar, and the instant is the one of the reading at its offset. The zone is one that is
meant just if it is `Neat`: no colon but one between hours and minutes, and minutes below sixty.
-/

namespace CheckAgent.StartTime

open CheckAgent.Number CheckAgent.Text

/-! ## What is accepted -/

def digitText (ds : List (Fin 10)) : List Char := ds.map fun d => d.val.digitChar

/-- The zones that the reader accepts, with the seconds that it reads from them. -/
inductive Accepts : List Char → Int → Prop
  | word {cs : List Char} (long : 3 ≤ cs.length) (capital : ∀ c ∈ cs, 'A' ≤ c ∧ c ≤ 'Z') :
      Accepts cs 0
  | east {cs : List Char} (a b c d : Fin 10)
      (digits : cs.filter (· ≠ ':') = digitText [a, b, c, d])
      (day : (a * 10 + b) * 60 + (c * 10 + d) < (1440 : Nat)) :
      Accepts ('+' :: cs) ((a * 10 + b) * 3600 + (c * 10 + d) * 60 : Nat)
  | west {cs : List Char} (a b c d : Fin 10)
      (digits : cs.filter (· ≠ ':') = digitText [a, b, c, d])
      (day : (a * 10 + b) * 60 + (c * 10 + d) < (1440 : Nat)) :
      Accepts ('-' :: cs) (-((a * 10 + b) * 3600 + (c * 10 + d) * 60 : Nat))

theorem isZoneWord_iff {cs : List Char} :
    isZoneWord cs = true ↔ 3 ≤ cs.length ∧ ∀ c ∈ cs, 'A' ≤ c ∧ c ≤ 'Z' := by
  simp [isZoneWord]

theorem offsetDigits?_eq_some_iff {cs : List Char} {n : Int} :
    offsetDigits? cs = some n ↔ ∃ a b c d : Fin 10,
      cs.filter (· ≠ ':') = digitText [a, b, c, d] ∧
        n = ((a * 10 + b) * 3600 + (c * 10 + d) * 60 : Nat) := by
  constructor
  · intro read
    rw [offsetDigits?] at read
    split at read
    · next a b c d digits =>
      cases read
      obtain ⟨c₁, cs₁, eq₁, h₁, digits⟩ := List.map_eq_cons_iff.mp digits
      obtain ⟨c₂, cs₂, eq₂, h₂, digits⟩ := List.map_eq_cons_iff.mp digits
      obtain ⟨c₃, cs₃, eq₃, h₃, digits⟩ := List.map_eq_cons_iff.mp digits
      obtain ⟨c₄, cs₄, eq₄, h₄, digits⟩ := List.map_eq_cons_iff.mp digits
      obtain ⟨small₁, rfl⟩ := digit?_eq_some_iff.mp h₁
      obtain ⟨small₂, rfl⟩ := digit?_eq_some_iff.mp h₂
      obtain ⟨small₃, rfl⟩ := digit?_eq_some_iff.mp h₃
      obtain ⟨small₄, rfl⟩ := digit?_eq_some_iff.mp h₄
      refine ⟨⟨a, small₁⟩, ⟨b, small₂⟩, ⟨c, small₃⟩, ⟨d, small₄⟩, ?_, rfl⟩
      rw [eq₁, eq₂, eq₃, eq₄, List.map_eq_nil_iff.mp digits]
      rfl
    · cases read
  · rintro ⟨a, b, c, d, digits, rfl⟩
    rw [offsetDigits?, digits]
    simp [digitText, digit?_digitChar]

theorem zone?_eq_some_iff {cs : List Char} {n : Int} : zone? cs = some n ↔ Accepts cs n := by
  constructor
  · intro read
    rw [zone?] at read
    split at read
    · next word =>
      cases read
      obtain ⟨long, capital⟩ := isZoneWord_iff.mp word
      exact .word long capital
    · unfold offset? at read
      split at read
      · next ds =>
        obtain ⟨read, day⟩ := Option.filter_eq_some_iff.mp read
        obtain ⟨a, b, c, d, digits, rfl⟩ := offsetDigits?_eq_some_iff.mp read
        exact .east a b c d digits (by have := of_decide_eq_true day; omega)
      · next ds =>
        obtain ⟨m, inner, rfl⟩ := Option.map_eq_some_iff.mp read
        obtain ⟨read, day⟩ := Option.filter_eq_some_iff.mp inner
        obtain ⟨a, b, c, d, digits, rfl⟩ := offsetDigits?_eq_some_iff.mp read
        exact .west a b c d digits (by have := of_decide_eq_true day; omega)
      · cases read
  · intro accepted
    cases accepted with
    | word long capital => rw [zone?, if_pos (isZoneWord_iff.mpr ⟨long, capital⟩)]
    | east a b c d digits day =>
      have read := offsetDigits?_eq_some_iff.mpr ⟨a, b, c, d, digits, rfl⟩
      simp [zone?, isZoneWord, offset?, read]
      omega
    | west a b c d digits day =>
      have read := offsetDigits?_eq_some_iff.mpr ⟨a, b, c, d, digits, rfl⟩
      simp [zone?, isZoneWord, offset?, read]
      omega

/-! ## What is meant -/

/-- A word of capitals, or a sign and four digits, with a colon between hours and minutes or without
one, and with minutes below sixty. -/
inductive Neat : List Char → Prop
  | word {cs : List Char} (long : 3 ≤ cs.length) (capital : ∀ c ∈ cs, 'A' ≤ c ∧ c ≤ 'Z') : Neat cs
  | plain (sign : Char) (a b c d : Fin 10) (minutes : c < 6) :
      Neat (sign :: digitText [a, b, c, d])
  | parted (sign : Char) (a b c d : Fin 10) (minutes : c < 6) :
      Neat (sign :: (digitText [a, b] ++ ':' :: digitText [c, d]))

theorem padded_two_fin {n : Nat} (fits : n < 100) : padded 2 n =
    digitText [⟨n / 10, by omega⟩, ⟨n % 10, by omega⟩] :=
  padded_two fits

theorem Zone.neat (z : Zone) : Neat z.text := by
  cases z with
  | word letters long capital => exact .word long capital
  | offset west h m colon =>
    have minutes : (m : Nat) / 10 < 6 := by omega
    rw [text, padded_two_fin (Nat.lt_trans h.isLt (by decide)),
      padded_two_fin (Nat.lt_trans m.isLt (by decide))]
    cases colon with
    | true => exact .parted _ _ _ _ _ minutes
    | false => exact .plain _ _ _ _ _ minutes

theorem digitText_inj {ds ds' : List (Fin 10)} (same : digitText ds = digitText ds') : ds = ds' :=
  (List.map_inj_right (by decide)).mp same

theorem filter_digitText (ds : List (Fin 10)) : (digitText ds).filter (· ≠ ':') = digitText ds := by
  refine List.filter_eq_self.mpr fun c mem => ?_
  obtain ⟨d, -, rfl⟩ := List.mem_map.mp mem
  have other : ∀ d : Fin 10, decide (d.val.digitChar ≠ ':') = true := by decide
  exact other d

theorem Accepts.bounded {sign : Char} {cs : List Char} {n : Int} {a b c d : Fin 10}
    (accepted : Accepts (sign :: cs) n) (digits : cs.filter (· ≠ ':') = digitText [a, b, c, d]) :
    (∃ west : Bool, sign = if west then '-' else '+') ∧
      (a * 10 + b) * 60 + (c * 10 + d) < (1440 : Nat) := by
  have same {a' b' c' d' : Fin 10} (digits' : cs.filter (· ≠ ':') = digitText [a', b', c', d']) :
      [a, b, c, d] = [a', b', c', d'] :=
    digitText_inj (digits.symm.trans digits')
  cases accepted with
  | word long capital =>
    -- The first digit is no capital.
    have inside : a.val.digitChar ∈ cs.filter (· ≠ ':') := digits ▸ List.mem_cons_self
    have capital := capital _ (List.mem_cons_of_mem _ (List.mem_filter.mp inside).1)
    have none : ∀ a : Fin 10, ¬ 'A' ≤ a.val.digitChar := by decide
    exact absurd capital.1 (none a)
  | east a' b' c' d' digits' day =>
    cases same digits'
    exact ⟨⟨false, rfl⟩, day⟩
  | west a' b' c' d' digits' day =>
    cases same digits'
    exact ⟨⟨true, rfl⟩, day⟩

theorem exists_offset (west colon : Bool) {a b c d : Fin 10} (minutes : c < 6)
    (day : (a * 10 + b) * 60 + (c * 10 + d) < (1440 : Nat)) :
    ∃ z : Zone, z.text = (if west then '-' else '+') ::
      (digitText [a, b] ++ ((if colon then [':'] else []) ++ digitText [c, d])) := by
  have tens : (c : Nat) < 6 := minutes
  have split (x y : Fin 10) : padded 2 (x * 10 + y : Nat) = digitText [x, y] := by
    have fits : (x * 10 + y : Nat) < 100 := by omega
    rw [padded_two fits, show (x * 10 + y : Nat) / 10 = x by omega,
      show (x * 10 + y : Nat) % 10 = y by omega]
    rfl
  refine ⟨.offset west ⟨a * 10 + b, by omega⟩ ⟨c * 10 + d, by omega⟩ colon, ?_⟩
  simp only [Zone.text, split]

/-- A zone that is accepted is meant just if it is neat. -/
theorem exists_zone_iff {cs : List Char} {n : Int} (accepted : Accepts cs n) :
    (∃ z : Zone, z.text = cs ∧ z.seconds = n) ↔ Neat cs := by
  constructor
  · rintro ⟨z, rfl, -⟩
    exact z.neat
  · intro neat
    have meant : ∃ z : Zone, z.text = cs := by
      cases neat with
      | word long capital => exact ⟨.word cs long capital, rfl⟩
      | plain sign a b c d minutes =>
        obtain ⟨⟨west, rfl⟩, day⟩ := accepted.bounded (filter_digitText [a, b, c, d])
        exact exists_offset west false minutes day
      | parted sign a b c d minutes =>
        have digits : (digitText [a, b] ++ ':' :: digitText [c, d]).filter (· ≠ ':') =
            digitText [a, b, c, d] := by
          rw [List.filter_append, List.filter_cons_of_neg (by decide), filter_digitText,
            filter_digitText]
          rfl
        obtain ⟨⟨west, rfl⟩, day⟩ := accepted.bounded digits
        exact exists_offset west true minutes day
    obtain ⟨z, rfl⟩ := meant
    have read := zone?_eq_some_iff.mpr accepted
    rw [zone?_text] at read
    exact ⟨z, rfl, Option.some.inj read⟩

/-! ## Start times -/

/-- **The zone of a start time that is read.** Behind the last space stands a zone that is accepted,
and the instant is the one of the reading at the offset of that zone. It is a zone that is meant
just if it is neat. -/
theorem accepted_zone {text : String} {i : Instant} (accepted : read text = .ok i) :
    ∃ before zone r n, splitLast? ' ' (trim text.toList) = some (before, zone) ∧
      reading before = .ok r ∧ Accepts zone n ∧ instant? r n = some i ∧
      ((∃ z : Zone, z.text = zone ∧ z.seconds = n) ↔ Neat zone) := by
  unfold read at accepted
  dsimp only at accepted
  split at accepted
  · cases accepted
  next before zone split =>
  split at accepted
  · cases accepted
  next r shown =>
  split at accepted
  · cases accepted
  next n ahead =>
  split at accepted
  · cases accepted
  next j instant =>
  cases accepted
  have accepts := zone?_eq_some_iff.mp ahead
  exact ⟨before, zone, r, n, split, shown, accepts, instant, exists_zone_iff accepts⟩

/-- An offset with hours and minutes is accepted and meant. -/
theorem neat_zone_accepted : read "2024-03-05 10:11:12 +02:30" = .ok ⟨1709624472, 0⟩ ∧
    ∃ z : Zone, z.text = "+02:30".toList := by
  have given : read "2024-03-05 10:11:12 +02:30" = .ok ⟨1709624472, 0⟩ :=
    toOption_eq_some_iff.mp (by decide +kernel)
  obtain ⟨before, zone, r, n, split, -, -, -, meant⟩ := accepted_zone given
  have behind : zone = "+02:30".toList := by
    have cut : splitLast? ' ' (trim "2024-03-05 10:11:12 +02:30".toList) =
        some ("2024-03-05 10:11:12".toList, "+02:30".toList) := by decide
    rw [cut] at split
    cases split
    rfl
  have neat : Neat "+02:30".toList := .parted '+' 0 2 3 0 (by decide)
  obtain ⟨z, text, -⟩ := meant.mpr (behind ▸ neat)
  exact ⟨given, z, text.trans behind⟩

/-- Minutes of ninety-nine are not neat, and neither are three colons. -/
theorem not_neat_excess : ¬ Neat "+0199".toList ∧ ¬ Neat "+0:2:0:0".toList := by
  constructor
  · generalize written : "+0199".toList = cs
    intro neat
    cases neat with
    | word long capital => exact absurd (capital '+' (by rw [← written]; decide)) (by decide)
    | plain sign a b c d minutes =>
      simp [digitText] at written
      omega
    | parted sign a b c d minutes => simp [digitText] at written
  · generalize written : "+0:2:0:0".toList = cs
    intro neat
    cases neat with
    | word long capital => exact absurd (capital '+' (by rw [← written]; decide)) (by decide)
    | plain sign a b c d minutes => simp [digitText] at written
    | parted sign a b c d minutes => simp [digitText] at written

/-- Ninety-nine minutes, and colons anywhere, are accepted although no zone is written like that. -/
theorem untidy_zones_accepted :
    read "2024-03-05 10:11:12 +0199" = .ok ⟨1709623932, 0⟩ ∧
    (¬ ∃ z : Zone, z.text = "+0199".toList) ∧
    read "2024-03-05 10:11:12 +0:2:0:0" = .ok ⟨1709626272, 0⟩ ∧
    (¬ ∃ z : Zone, z.text = "+0:2:0:0".toList) := by
  refine ⟨toOption_eq_some_iff.mp (by decide +kernel), ?_,
    toOption_eq_some_iff.mp (by decide +kernel), ?_⟩
  · rintro ⟨z, text⟩
    exact not_neat_excess.1 (text ▸ z.neat)
  · rintro ⟨z, text⟩
    exact not_neat_excess.2 (text ▸ z.neat)

end CheckAgent.StartTime
