import CheckAgent.Json.Decode
import CheckAgent.Proofs.Number.Digits

/-!
# Reading what is written

The text of a value is read back to that value. Each part of a text is read **up to where it ends by
itself**: a string at its closing quote, a list or an object at its bracket, and a number where no
digit, point or exponent follows (`Stops`), so every lemma carries the rest of the text along.

**The fuel** of the reader is compared with the length of the text. A step into a list or an object
takes one unit of it and passes at least one character, so twice the length is enough.

A literal may hold any numbers in the place of its digits; only one with digits (`Plain`) has a text
that is a number.

Main results: `readValue_append`, by structural recursion on the value, and `ofString_render`.
-/

namespace CheckAgent.Json

open CheckAgent.Number CheckAgent.Text

/-! ## Numbers -/

namespace Literal

/-- The digits behind the point are digits. -/
def Plain (l : Literal) : Prop := ∀ d ∈ l.fraction, d < 10

theorem ofDigits_digitsOf (n : Nat) : Decimal.ofDigits (digitsOf n) = n := by
  rw [digitsOf, ofDigits_map, Nat.ofDigitChars_toDigits (by decide) (by decide)]

theorem spanDigits_toDigits (n : Nat) {rest : List Char}
    (stop : ∀ c ∈ rest.head?, c.isDigit = false) :
    Decimal.spanDigits (Nat.toDigits 10 n ++ rest) = (digitsOf n, rest) :=
  spanDigits_append (fun _ mem => isDigit_of_mem_toDigits mem) stop

/-- No zero leads a number of several digits. -/
theorem digitsOf_ne_zero_cons (n d : Nat) (ds : List Nat) : digitsOf n ≠ 0 :: d :: ds := by
  induction n using Nat.strongRecOn generalizing d ds with
  | _ n ih =>
    intro written
    by_cases single : n < 10
    · simp [digitsOf, Nat.toDigits_of_lt_base single] at written
    · have last : digitsOf n = digitsOf (n / 10) ++ [n % 10] := by
        rw [digitsOf, Nat.toDigits_of_base_le (by decide) (Nat.le_of_not_lt single),
          List.map_append, ← digitsOf, List.map_singleton]
        exact congrArg (digitsOf (n / 10) ++ [·])
          (Nat.toNat_digitChar_sub_48_of_lt_ten (Nat.mod_lt n (by decide)))
      rw [last] at written
      cases front : digitsOf (n / 10) with
      | nil => simp [front] at written
      | cons a tail =>
        rw [front] at written
        obtain ⟨rfl, -⟩ := List.cons.inj written
        cases tail with
        | nil =>
          have value := ofDigits_digitsOf (n / 10)
          rw [front] at value
          have zero : 0 = n / 10 := value
          omega
        | cons a tail => exact ih (n / 10) (by omega) a tail front

theorem digitsOf_ne_nil (n : Nat) : digitsOf n ≠ [] := by
  simp [digitsOf, Nat.toDigits_ne_nil]

/-- The digits behind the point as they are written. -/
def pointDigits (ds : List Nat) : List Char := ds.map fun d => Char.ofNat (d + '0'.toNat)

theorem spanDigits_pointDigits {ds : List Nat} (plain : ∀ d ∈ ds, d < 10) {rest : List Char}
    (stop : ∀ c ∈ rest.head?, c.isDigit = false) :
    Decimal.spanDigits (pointDigits ds ++ rest) = (ds, rest) := by
  have digit : ∀ d, d < 10 → (Char.ofNat (d + '0'.toNat)).isDigit = true ∧
      (Char.ofNat (d + '0'.toNat)).toNat - '0'.toNat = d := by decide
  rw [pointDigits, spanDigits_append _ stop, List.map_map]
  · have same : ∀ d ∈ ds, ((fun c : Char => c.toNat - '0'.toNat) ∘
        fun d => Char.ofNat (d + '0'.toNat)) d = id d := fun d mem => (digit d (plain d mem)).2
    rw [List.map_congr_left same, List.map_id]
  · intro c mem
    obtain ⟨d, hd, rfl⟩ := List.mem_map.mp mem
    exact (digit d (plain d hd)).1

end Literal

/-- No number goes on here. -/
def Stops (rest : List Char) : Prop :=
  ∀ c ∈ rest.head?, c.isDigit = false ∧ c ≠ '.' ∧ c ≠ 'e' ∧ c ≠ 'E'

/-- The part of a number from its exponent on. -/
def exponentText (e : Option Int) : List Char :=
  match e with
  | none => []
  | some e => 'e' :: (if e < 0 then ['-'] else []) ++ Nat.toDigits 10 e.natAbs

theorem readExponent_append (l : Literal) (e : Int) {rest : List Char} (stops : Stops rest) :
    readExponent l ((if e < 0 then ['-'] else []) ++ Nat.toDigits 10 e.natAbs ++ rest) =
      (.number { l with exponent := some e }, some rest) := by
  have span := Literal.spanDigits_toDigits e.natAbs fun c mem => (stops c mem).1
  have value := Literal.ofDigits_digitsOf e.natAbs
  have any := Literal.digitsOf_ne_nil e.natAbs
  generalize Literal.digitsOf e.natAbs = ds at span value any
  cases ds with
  | nil => exact absurd rfl any
  | cons d ds =>
    unfold readExponent
    by_cases below : e < 0
    · rw [if_pos below]
      simp only [List.cons_append, List.nil_append, span, value, if_true]
      rw [show -(e.natAbs : Int) = e by omega]
    · rw [if_neg below, List.nil_append]
      split
      next negative cs sign =>
      -- the first character is a digit and no sign
      obtain ⟨c, tail, first, digit⟩ := toDigits_eq_cons e.natAbs
      split at sign
      · next same => rw [first] at same; cases same; cases digit
      · next same => rw [first] at same; cases same; cases digit
      · cases sign
        simp only [span, value, Bool.false_eq_true, if_false]
        rw [show (e.natAbs : Int) = e by omega]

theorem readTail_append (l : Literal) (whole : l.exponent = none) (e : Option Int)
    {rest : List Char} (stops : Stops rest) :
    readTail l (exponentText e ++ rest) = (.number { l with exponent := e }, some rest) := by
  cases e with
  | some e => exact readExponent_append l e stops
  | none =>
    show readTail l rest = _
    unfold readTail
    split
    · next tail => exact absurd rfl (stops 'e' (by simp)).2.2.1
    · next tail => exact absurd rfl (stops 'E' (by simp)).2.2.2
    · rw [← whole]

/-- The part of a number from its point on. -/
def fractionText (ds : List Nat) : List Char :=
  if ds.isEmpty then [] else '.' :: Literal.pointDigits ds

theorem stops_of_exponentText (e : Option Int) {rest : List Char} (stops : Stops rest) :
    ∀ c ∈ (exponentText e ++ rest).head?, c.isDigit = false ∧ c ≠ '.' := by
  cases e with
  | none => exact fun c mem => ⟨(stops c mem).1, (stops c mem).2.1⟩
  | some e =>
    rintro c ⟨⟩
    decide

theorem stops_of_fractionText (ds : List Nat) (e : Option Int) {rest : List Char}
    (stops : Stops rest) :
    ∀ c ∈ (fractionText ds ++ (exponentText e ++ rest)).head?, c.isDigit = false := by
  cases ds with
  | nil => exact fun c mem => (stops_of_exponentText e stops c mem).1
  | cons d ds =>
    rintro c ⟨⟩
    decide

theorem readNumber_append (l : Literal) (plain : l.Plain) {rest : List Char} (stops : Stops rest) :
    readNumber l.negative (Nat.toDigits 10 l.whole ++
        (fractionText l.fraction ++ (exponentText l.exponent ++ rest))) =
      (.number l, some rest) := by
  obtain ⟨negative, whole, fraction, exponent⟩ := l
  have after := stops_of_exponentText exponent stops
  have value := Literal.ofDigits_digitsOf whole
  unfold readNumber
  rw [Literal.spanDigits_toDigits whole (stops_of_fractionText fraction exponent stops)]
  dsimp only
  cases fraction with
  | nil =>
    split
    · next none => exact absurd (congrArg Prod.fst none) (Literal.digitsOf_ne_nil whole)
    · next zero => exact absurd (congrArg Prod.fst zero) (Literal.digitsOf_ne_zero_cons whole _ _)
    · next point =>
      have front : exponentText exponent ++ rest = _ := congrArg Prod.snd point
      exact absurd rfl (after '.' (by rw [front]; rfl)).2
    · next ds tail _ _ _ split =>
      obtain ⟨rfl, rfl⟩ := Prod.mk.inj split
      rw [value]
      exact readTail_append _ rfl exponent stops
  | cons f fs =>
    have span := Literal.spanDigits_pointDigits (show ∀ d ∈ f :: fs, d < 10 from plain)
      fun c mem => (after c mem).1
    split
    · next none => exact absurd (congrArg Prod.fst none) (Literal.digitsOf_ne_nil whole)
    · next zero => exact absurd (congrArg Prod.fst zero) (Literal.digitsOf_ne_zero_cons whole _ _)
    · next ds tail _ _ point =>
      obtain ⟨rfl, behind⟩ := Prod.mk.inj point
      have behind : Literal.pointDigits (f :: fs) ++ (exponentText exponent ++ rest) = tail :=
        (List.cons.inj behind).2
      rw [← behind, span, value]
      exact readTail_append _ rfl exponent stops
    · next pointless split => exact (pointless _ (congrArg Prod.snd split).symm).elim

theorem text_eq (l : Literal) :
    l.text = (if l.negative then ['-'] else []) ++
      (Nat.toDigits 10 l.whole ++ (fractionText l.fraction ++ exponentText l.exponent)) := by
  obtain ⟨negative, whole, fraction, exponent⟩ := l
  cases exponent <;>
    simp only [Literal.text, fractionText, Literal.pointDigits, exponentText, List.append_assoc]

/-! ## Strings -/

theorem hex4_small : ∀ n < 0x20,
    hex4 n = ['0', '0', Nat.digitChar (n / 16), Nat.digitChar (n % 16)] ∧
      hexUnit? '0' '0' (Nat.digitChar (n / 16)) (Nat.digitChar (n % 16)) = some n := by decide

/-- A written character is read back. -/
theorem scanString_renderChar (c : Char) (text rest : List Char) :
    scanString ⟨.ok text, none⟩ (renderChar c ++ rest) =
      scanString ⟨.ok (c :: text), none⟩ rest := by
  unfold renderChar
  split
  case h_8 quote slash _ _ _ _ _ =>
    by_cases control : c.toNat < 0x20
    · obtain ⟨digits, value⟩ := hex4_small c.toNat control
      have low : ¬(0xDC00 ≤ c.toNat ∧ c.toNat ≤ 0xDFFF) := by omega
      have high : ¬(0xD800 ≤ c.toNat ∧ c.toNat ≤ 0xDBFF) := by omega
      rw [if_pos control, digits]
      simp only [List.cons_append, List.nil_append]
      rw [scanString]
      simp only [value]
      rw [Scan.pushUnit, if_neg low, if_neg high, Char.ofNat_toNat]
      rfl
    · rw [if_neg control, List.singleton_append]
      rw [scanString, if_neg control]
      · rfl
      · exact quote
      · exact fun same _ => slash same
      · exact fun _ _ _ _ _ same _ => slash same
      · exact fun _ same _ => slash same
      · exact fun _ _ same _ => slash same
  all_goals simp [scanString, escape?, Scan.push, Scan.settle, Except.map]

theorem scanString_append (cs text rest : List Char) :
    scanString ⟨.ok text, none⟩ (cs.flatMap renderChar ++ '"' :: rest) =
      .whole (.ok (String.ofList (text.reverse ++ cs))) rest := by
  induction cs generalizing text with
  | nil => simp [scanString, Scan.settle, Except.map]
  | cons c cs ih =>
    rw [List.flatMap_cons, List.append_assoc, scanString_renderChar, ih]
    simp

theorem readString_append (s : String) (rest : List Char) :
    readString (s.toList.flatMap renderChar ++ '"' :: rest) = .whole (.ok s) rest := by
  rw [readString, scanString_append]
  simp

/-! ## Values -/

theorem skipSpace_cons {c : Char} (cs : List Char) (visible : isSpace c = false) :
    skipSpace (c :: cs) = c :: cs := by
  simp [skipSpace, visible]

theorem readValue_string (fuel : Nat) (s : String) (rest : List Char) :
    readValue (fuel + 1) (renderString s ++ rest) = (.string (.ok s), some rest) := by
  have text := readString_append s rest
  simp only [renderString, List.cons_append, List.append_assoc, List.nil_append]
  rw [readValue, skipSpace_cons _ (by decide)]
  simp only [text]

theorem isSpace_of_isDigit {c : Char} (digit : c.isDigit = true) : isSpace c = false := by
  cases space : isSpace c with
  | false => rfl
  | true =>
    simp only [isSpace, Bool.or_eq_true, beq_iff_eq] at space
    rcases space with ((rfl | rfl) | rfl) | rfl <;> cases digit

/-- A value that begins with a digit is a number. -/
theorem readValue_digit (fuel : Nat) {c : Char} (cs : List Char) (digit : c.isDigit = true) :
    readValue (fuel + 1) (c :: cs) = readNumber false (c :: cs) := by
  have range : '0' ≤ c ∧ c ≤ '9' := by simpa [Char.isDigit, Char.le_def] using digit
  rw [readValue, skipSpace_cons cs (isSpace_of_isDigit digit)]
  split
  case h_9 same =>
    obtain ⟨rfl, rfl⟩ := List.cons.inj same
    rw [if_pos range]
  · next same => cases same
  all_goals
    next same =>
    cases same
    cases digit

theorem readValue_number (fuel : Nat) (l : Literal) (plain : l.Plain) {rest : List Char}
    (stops : Stops rest) : readValue (fuel + 1) (l.text ++ rest) = (.number l, some rest) := by
  have number := readNumber_append l plain stops
  rw [text_eq]
  cases sign : l.negative with
  | true =>
    rw [sign] at number
    rw [if_pos rfl, List.append_assoc, List.append_assoc, List.append_assoc, List.singleton_append,
      readValue, skipSpace_cons _ (by decide)]
    exact number
  | false =>
    rw [sign] at number
    obtain ⟨c, cs, first, digit⟩ := toDigits_eq_cons l.whole
    rw [first] at number ⊢
    rw [if_neg Bool.false_ne_true, List.nil_append, List.append_assoc, List.append_assoc]
    exact (readValue_digit fuel _ digit).trans number

theorem readWord_append (d : Draft) (word rest : List Char) :
    readWord d word (word ++ rest) = (d, some rest) := by
  induction word with
  | nil => rfl
  | cons c word ih => rw [List.cons_append, readWord, if_pos rfl, ih]

mutual

/-- All numbers of a value are written with digits. -/
def Plain : Json → Prop
  | .number l => l.Plain
  | .array items => PlainItems items
  | .object ms => PlainMembers ms
  | _ => True

def PlainItems : List Json → Prop
  | [] => True
  | v :: rest => v.Plain ∧ PlainItems rest

def PlainMembers : List (String × Json) → Prop
  | [] => True
  | (_, v) :: rest => v.Plain ∧ PlainMembers rest

end

theorem plainItems_of_forall {items : List Json} (plain : ∀ v ∈ items, v.Plain) :
    PlainItems items := by
  induction items with
  | nil => trivial
  | cons v rest ih =>
    exact ⟨plain v List.mem_cons_self, ih fun w mem => plain w (List.mem_cons_of_mem v mem)⟩

theorem plainMembers_of_forall {ms : List (String × Json)} (plain : ∀ m ∈ ms, m.2.Plain) :
    PlainMembers ms := by
  induction ms with
  | nil => trivial
  | cons m rest ih =>
    exact ⟨plain m List.mem_cons_self, ih fun w mem => plain w (List.mem_cons_of_mem m mem)⟩

/-- A written value begins with a character that is neither a blank nor a bracket that closes. -/
theorem chars_eq_cons (v : Json) :
    ∃ c cs, v.chars = c :: cs ∧ isSpace c = false ∧ c ≠ ']' := by
  cases v with
  | null => exact ⟨_, _, rfl, by decide, by decide⟩
  | bool b => cases b <;> exact ⟨_, _, rfl, by decide, by decide⟩
  | string s => exact ⟨_, _, rfl, by decide, by decide⟩
  | array items => exact ⟨_, _, rfl, by decide, by decide⟩
  | object ms => exact ⟨_, _, rfl, by decide, by decide⟩
  | number l =>
    show ∃ c cs, l.text = c :: cs ∧ _
    rw [text_eq]
    cases l.negative with
    | true => exact ⟨_, _, rfl, by decide, by decide⟩
    | false =>
      obtain ⟨c, cs, first, digit⟩ := toDigits_eq_cons l.whole
      rw [first]
      refine ⟨_, _, rfl, isSpace_of_isDigit digit, ?_⟩
      rintro rfl
      cases digit

theorem itemChars_eq_cons (v : Json) (vs : List Json) :
    ∃ c cs, itemChars (v :: vs) = c :: cs ∧ isSpace c = false ∧ c ≠ ']' := by
  obtain ⟨c, cs, first, visible, opens⟩ := chars_eq_cons v
  cases vs with
  | nil => exact ⟨c, cs, first, visible, opens⟩
  | cons w ws =>
    refine ⟨c, cs ++ ',' :: itemChars (w :: ws), ?_, visible, opens⟩
    rw [itemChars, first, List.cons_append]
    simp

theorem stops_cons {c : Char} (cs : List Char)
    (other : c.isDigit = false ∧ c ≠ '.' ∧ c ≠ 'e' ∧ c ≠ 'E') : Stops (c :: cs) := by
  rintro d ⟨⟩
  exact other

/-! ## Steps of the reader -/

section Steps

variable {fuel : Nat} {cs rest more : List Char} {d : Draft}

theorem readValue_array {c : Char} {items : List Draft} {stop : ListStop}
    {after : Option (List Char)} (visible : isSpace c = false) (opens : c ≠ ']')
    (read : readItems fuel (c :: cs) = (items, stop, after)) :
    readValue (fuel + 1) ('[' :: c :: cs) = (.array items stop, after) := by
  rw [readValue, skipSpace_cons _ (by decide)]
  simp only [skipSpace_cons _ visible]
  split
  · next same => cases same
  · next same => exact absurd (List.cons.inj same).1 opens
  · rw [read]

theorem readItems_last (read : readValue fuel cs = (d, some (']' :: rest))) :
    readItems (fuel + 1) cs = ([d], .closed, some rest) := by
  rw [readItems, read]
  simp only [skipSpace_cons _ (show isSpace ']' = false by decide)]

theorem readItems_more {c : Char} {items : List Draft} {stop : ListStop}
    {after : Option (List Char)} (visible : isSpace c = false) (opens : c ≠ ']')
    (read : readValue fuel cs = (d, some (',' :: c :: more)))
    (tail : readItems fuel (c :: more) = (items, stop, after)) :
    readItems (fuel + 1) cs = (d :: items, stop, after) := by
  rw [readItems, read]
  simp only [skipSpace_cons _ (show isSpace ',' = false by decide), skipSpace_cons _ visible]
  split
  · next same => cases same
  · next same => exact absurd (List.cons.inj same).1 opens
  · rw [tail]

theorem readValue_object {members : List (Except Fault String × Draft)} {stop : ObjectStop}
    {after : Option (List Char)} (read : readMembers fuel cs = (members, stop, after)) :
    readValue (fuel + 1) ('\x7b' :: '"' :: cs) = (.object members stop none, after) := by
  rw [readValue, skipSpace_cons _ (by decide)]
  simp only [skipSpace_cons _ (show isSpace '"' = false by decide), read]

theorem readMembers_last {key : Except Fault String}
    (name : readString cs = .whole key (':' :: more))
    (read : readValue fuel more = (d, some ('\x7d' :: rest))) :
    readMembers (fuel + 1) cs = ([(key, d)], .closed, some rest) := by
  rw [readMembers, name]
  simp only [skipSpace_cons _ (show isSpace ':' = false by decide), read,
    skipSpace_cons _ (show isSpace '\x7d' = false by decide)]

theorem readMembers_more {key : Except Fault String} {members : List (Except Fault String × Draft)}
    {stop : ObjectStop} {after : Option (List Char)}
    (name : readString cs = .whole key (':' :: more))
    (read : readValue fuel more = (d, some (',' :: '"' :: rest)))
    (tail : readMembers fuel rest = (members, stop, after)) :
    readMembers (fuel + 1) cs = ((key, d) :: members, stop, after) := by
  rw [readMembers, name]
  simp only [skipSpace_cons _ (show isSpace ':' = false by decide), read,
    skipSpace_cons _ (show isSpace ',' = false by decide),
    skipSpace_cons _ (show isSpace '"' = false by decide), tail]

end Steps

/-! ## Reading what is written -/

theorem fuel_pos {v : Json} {fuel : Nat} (enough : 2 * v.chars.length ≤ fuel) :
    ∃ fuel', fuel = fuel' + 1 := by
  obtain ⟨c, cs, first, -⟩ := chars_eq_cons v
  rw [first, List.length_cons] at enough
  exact ⟨fuel - 1, by omega⟩

mutual

/-- **Reading gives back what was written**, with the text behind it. -/
theorem readValue_append (v : Json) (plain : v.Plain) (fuel : Nat) (rest : List Char)
    (enough : 2 * v.chars.length ≤ fuel) (stops : Stops rest) :
    readValue fuel (v.chars ++ rest) = (Draft.ofJson v, some rest) := by
  obtain ⟨fuel, rfl⟩ := fuel_pos enough
  match v with
  | .null => exact readWord_append .null ['u', 'l', 'l'] rest
  | .bool true => exact readWord_append (.bool true) ['r', 'u', 'e'] rest
  | .bool false => exact readWord_append (.bool false) ['a', 'l', 's', 'e'] rest
  | .number l => exact readValue_number fuel l plain stops
  | .string s => exact readValue_string fuel s rest
  | .array [] => rfl
  | .object [] => rfl
  | .array (v :: vs) =>
    obtain ⟨c, cs, first, visible, opens⟩ := itemChars_eq_cons v vs
    have count : (chars (.array (v :: vs))).length = (itemChars (v :: vs)).length + 2 := by
      simp [chars]
    have items := readItems_append (v :: vs) (List.cons_ne_nil v vs) plain fuel rest (by omega)
    rw [first] at items
    rw [chars, first, List.append_assoc]
    exact readValue_array visible opens items
  | .object (m :: ms) =>
    have count : (chars (.object (m :: ms))).length = (memberChars (m :: ms)).length + 2 := by
      simp [chars]
    obtain ⟨cs, first, members⟩ :=
      readMembers_append (m :: ms) (List.cons_ne_nil m ms) plain fuel rest (by omega)
    rw [chars, first, List.append_assoc]
    exact readValue_object members

theorem readItems_append (items : List Json) (any : items ≠ []) (plain : PlainItems items)
    (fuel : Nat) (rest : List Char) (enough : 2 * (itemChars items).length + 1 ≤ fuel) :
    readItems fuel (itemChars items ++ ']' :: rest) =
      (Draft.ofItems items, .closed, some rest) := by
  obtain ⟨fuel, rfl⟩ : ∃ fuel', fuel = fuel' + 1 := ⟨fuel - 1, by omega⟩
  match items with
  | [v] =>
    exact readItems_last
      (readValue_append v plain.1 fuel (']' :: rest) (Nat.le_of_succ_le_succ enough)
        (stops_cons _ (by decide)))
  | v :: w :: ws =>
    obtain ⟨c, cs, first, visible, opens⟩ := itemChars_eq_cons w ws
    have count : (itemChars (v :: w :: ws)).length =
        v.chars.length + 1 + (itemChars (w :: ws)).length := by
      simp [itemChars]
      omega
    have items := readItems_append (w :: ws) (List.cons_ne_nil w ws) plain.2 fuel rest (by omega)
    have value := readValue_append v plain.1 fuel (',' :: (itemChars (w :: ws) ++ ']' :: rest))
      (by omega) (stops_cons _ (by decide))
    rw [first] at items value
    rw [itemChars, first, List.append_assoc]
    · exact readItems_more visible opens value items
    · exact List.cons_ne_nil w ws

theorem readMembers_append (ms : List (String × Json)) (any : ms ≠ []) (plain : PlainMembers ms)
    (fuel : Nat) (rest : List Char) (enough : 2 * (memberChars ms).length + 1 ≤ fuel) :
    ∃ cs, memberChars ms = '"' :: cs ∧
      readMembers fuel (cs ++ '\x7d' :: rest) = (Draft.ofMembers ms, .closed, some rest) := by
  obtain ⟨fuel, rfl⟩ : ∃ fuel', fuel = fuel' + 1 := ⟨fuel - 1, by omega⟩
  match ms with
  | [(k, v)] =>
    have count : (memberChars [(k, v)]).length = (renderString k).length + 1 + v.chars.length := by
      simp [memberChars]
      omega
    have value := readValue_append v plain.1 fuel ('\x7d' :: rest) (by omega)
      (stops_cons _ (by decide))
    refine ⟨k.toList.flatMap renderChar ++ '"' :: ':' :: v.chars,
      by simp [memberChars, renderString], ?_⟩
    rw [List.append_assoc]
    exact readMembers_last (readString_append k _) value
  | (k, v) :: m :: ms =>
    have count : (memberChars ((k, v) :: m :: ms)).length =
        (renderString k).length + 1 + v.chars.length + 1 + (memberChars (m :: ms)).length := by
      simp [memberChars]
      omega
    obtain ⟨cs, first, members⟩ :=
      readMembers_append (m :: ms) (List.cons_ne_nil m ms) plain.2 fuel rest (by omega)
    have value := readValue_append v plain.1 fuel (',' :: '"' :: (cs ++ '\x7d' :: rest))
      (by omega) (stops_cons _ (by decide))
    refine ⟨k.toList.flatMap renderChar ++ '"' :: ':' :: (v.chars ++ ',' :: '"' :: cs), ?_, ?_⟩
    · rw [memberChars, first]
      · simp [renderString]
      · exact List.cons_ne_nil m ms
    · simp only [List.append_assoc, List.cons_append]
      exact readMembers_more (readString_append k _) value members

end

/-- The text of a value is the document of the value. -/
theorem ofString_render (v : Json) (plain : v.Plain) :
    Document.ofString v.render = Document.ofJson v := by
  have read := readValue_append v plain (2 * (v.chars.length + 1)) [] (by omega)
    (fun c none => by cases none)
  rw [List.append_nil] at read
  rw [Document.ofString, render, String.toList_ofList, Document.ofChars, read]
  rfl

theorem decode_render {α : Type} (decoder : Draft → Decoded α) (v : Json) (plain : v.Plain) :
    (Document.ofString v.render).decode decoder = decoder (Draft.ofJson v) := by
  rw [ofString_render v plain]
  show decoder (Draft.ofJson v) >>= pure = _
  rw [bind_pure]

end CheckAgent.Json
