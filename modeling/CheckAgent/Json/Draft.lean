import CheckAgent.Json.Value
import CheckAgent.Text.Percent

/-!
# Drafts

A draft is the tree that a text holds **together with the faults of the text, each at its place**.
A decoder walks the draft in the order of the text and meets the first fault or the first value of
a wrong kind, whichever comes first. A value that nobody asks for is only skipped: skipping looks
at the form of a text and not at its meaning, so it passes over numbers without bounds and halves
of surrogate pairs, and some faults are worded differently.

`Draft.ofJson` is the draft of a text without faults.
-/

namespace CheckAgent.Json

/-- How the items of a list come to an end. -/
inductive ListStop where
  | closed
  | ended
  | noSeparator
  | closedAfterComma
  | endedAfterComma
  deriving DecidableEq, Repr

/-- How the members of an object come to an end. -/
inductive ObjectStop where
  | closed
  | ended
  | noSeparator
  | noKey
  | closedAfterComma
  | noKeyAfterComma
  | endedAfterComma
  deriving DecidableEq, Repr

/-- A value with the faults of its text. A string carries what reading it gives, and an object
without a first key what stands in its place. Where no value begins, because the text is over or a
colon is missing, the draft is `missing`. A string that does not end is `cut` and any other value
that does not is `broken`, each with the fault that a reader and the one that a skipper meets. -/
inductive Draft where
  | null
  | bool (value : Bool)
  | number (literal : Literal)
  | string (content : Except Fault String)
  | array (items : List Draft) (stop : ListStop)
  | object (members : List (Except Fault String × Draft)) (stop : ObjectStop) (found : Option Draft)
  | missing (fault : Fault)
  | cut (reading skipping : Fault)
  | broken (reading skipping : Fault)

/-- A draft and whether anything but blanks follows it. -/
structure Document where
  draft : Draft
  trailing : Bool

namespace ListStop

/-- What a reader meets at the end of a list. -/
def reading : ListStop → Option Fault
  | .closed => none
  | .ended => some .endOfList
  | .noSeparator => some .expectedListSeparator
  | .closedAfterComma => some .trailingComma
  | .endedAfterComma => some .endOfValue

/-- What a skipper meets at the end of a list. -/
def skipping : ListStop → Option Fault
  | .closedAfterComma => some .expectedValue
  | s => s.reading

/-- What a reader meets that wants no further item. -/
def finishing : ListStop → Option Fault
  | .closed => none
  | .ended => some .endOfList
  | .closedAfterComma => some .trailingComma
  | .noSeparator | .endedAfterComma => some .trailingCharacters

end ListStop

namespace ObjectStop

/-- What a reader meets at the end of an object. -/
def reading : ObjectStop → Option Fault
  | .closed => none
  | .ended => some .endOfObject
  | .noSeparator => some .expectedObjectSeparator
  | .noKey | .noKeyAfterComma => some .keyNotString
  | .closedAfterComma => some .trailingComma
  | .endedAfterComma => some .endOfValue

/-- What a skipper meets at the end of an object. -/
def skipping : ObjectStop → Option Fault
  | .closedAfterComma => some .keyNotString
  | .endedAfterComma => some .endOfObject
  | s => s.reading

end ObjectStop

/-! ## The draft of a value -/

mutual

/-- The draft of a text that holds a value. -/
def Draft.ofJson : Json → Draft
  | .null => .null
  | .bool b => .bool b
  | .number l => .number l
  | .string s => .string (.ok s)
  | .array items => .array (Draft.ofItems items) .closed
  | .object members => .object (Draft.ofMembers members) .closed none

/-- The drafts of items. -/
def Draft.ofItems : List Json → List Draft
  | [] => []
  | v :: rest => Draft.ofJson v :: Draft.ofItems rest

/-- The drafts of members. -/
def Draft.ofMembers : List (String × Json) → List (Except Fault String × Draft)
  | [] => []
  | (k, v) :: rest => (.ok k, Draft.ofJson v) :: Draft.ofMembers rest

end

mutual

/-- The value that a draft without faults holds. -/
def Draft.toJson? : Draft → Option Json
  | .null => some .null
  | .bool b => some (.bool b)
  | .number l => some (.number l)
  | .string (.ok s) => some (.string s)
  | .array items .closed => (Draft.toItems? items).map .array
  | .object members .closed _ => (Draft.toMembers? members).map .object
  | _ => none

/-- The values of drafts without faults. -/
def Draft.toItems? : List Draft → Option (List Json)
  | [] => some []
  | d :: rest => do pure ((← d.toJson?) :: (← Draft.toItems? rest))

/-- The members of drafts without faults. -/
def Draft.toMembers? : List (Except Fault String × Draft) → Option (List (String × Json))
  | [] => some []
  | (.ok k, d) :: rest => do pure ((k, ← d.toJson?) :: (← Draft.toMembers? rest))
  | (.error _, _) :: _ => none

end

/-- A stop as a result. -/
def stopped (fault : Option Fault) : Except Fault Unit :=
  match fault with
  | none => .ok ()
  | some f => .error f

mutual

/-- Pass over a value. -/
def Draft.skip : Draft → Except Fault Unit
  | .array items stop => do skipItems items; stopped stop.skipping
  | .object members stop _ => do skipMembers members; stopped stop.skipping
  | .missing f | .cut _ f | .broken _ f => .error f
  | _ => .ok ()

/-- Pass over items. -/
def skipItems : List Draft → Except Fault Unit
  | [] => .ok ()
  | v :: rest => do v.skip; skipItems rest

/-- Pass over members. -/
def skipMembers : List (Except Fault String × Draft) → Except Fault Unit
  | [] => .ok ()
  | (_, v) :: rest => do v.skip; skipMembers rest

end

/-! ## Reading text -/

/-- Blanks between the parts of a JSON text. -/
def isSpace (c : Char) : Bool := c == ' ' || c == '\n' || c == '\t' || c == '\r'

/-- The text after its leading blanks. -/
def skipSpace (cs : List Char) : List Char := cs.dropWhile isSpace

/-- The outcome of scanning a string behind its opening quote. -/
inductive Scanned where
  /-- A whole string: what reading it gives, and the text behind it. -/
  | whole (content : Except Fault String) (rest : List Char)
  /-- A string that cannot be scanned to its end. -/
  | cut (reading skipping : Fault)

/-- The text of a string so far, backwards, or the first fault that a reader meets in it; and a
leading surrogate that waits for its other half. -/
structure Scan where
  text : Except Fault (List Char)
  high : Option Nat

namespace Scan

/-- Anything but an escaped code unit follows. -/
def settle (s : Scan) : Except Fault (List Char) :=
  match s.high with
  | none => s.text
  | some _ => s.text.bind fun _ => .error .unfinishedSurrogate

/-- Append a character. -/
def push (s : Scan) (c : Char) : Scan := ⟨s.settle.map (c :: ·), none⟩

/-- Append an escaped code unit. -/
def pushUnit (s : Scan) (n : Nat) : Scan :=
  match s.high with
  | some h =>
    if 0xDC00 ≤ n ∧ n ≤ 0xDFFF then
      ⟨s.text.map (Char.ofNat (0x10000 + (h - 0xD800) * 0x400 + (n - 0xDC00)) :: ·), none⟩
    else ⟨s.text.bind fun _ => .error .loneSurrogate, none⟩
  | none =>
    if 0xDC00 ≤ n ∧ n ≤ 0xDFFF then ⟨s.text.bind fun _ => .error .loneSurrogate, none⟩
    else if 0xD800 ≤ n ∧ n ≤ 0xDBFF then ⟨s.text, some n⟩
    else ⟨s.text.map (Char.ofNat n :: ·), none⟩

/-- The scan breaks off; an earlier fault of the text comes first. -/
def cut (text : Except Fault (List Char)) (fault : Fault) : Scanned :=
  match text with
  | .ok _ => .cut fault fault
  | .error f => .cut f fault

end Scan

/-- The character of a one-letter escape. -/
def escape? : Char → Option Char
  | '"' => some '"'
  | '\\' => some '\\'
  | '/' => some '/'
  | 'b' => some '\x08'
  | 'f' => some '\x0c'
  | 'n' => some '\n'
  | 'r' => some '\r'
  | 't' => some '\t'
  | _ => none

/-- The value of four hexadecimal digits. -/
def hexUnit? (a b c d : Char) : Option Nat := do
  let a ← Text.hexDigit? a
  let b ← Text.hexDigit? b
  let c ← Text.hexDigit? c
  let d ← Text.hexDigit? d
  pure (((a * 16 + b) * 16 + c) * 16 + d)

/-- Scan a string behind its opening quote. -/
def scanString (s : Scan) : List Char → Scanned
  | [] => Scan.cut s.text .endOfString
  | '"' :: rest => .whole (s.settle.map fun cs => String.ofList cs.reverse) rest
  | ['\\'] => Scan.cut s.text .endOfString
  | '\\' :: 'u' :: a :: b :: c :: d :: rest =>
    match hexUnit? a b c d with
    | none => Scan.cut s.text .invalidEscape
    | some n => scanString (s.pushUnit n) rest
  | '\\' :: 'u' :: rest =>
    -- fewer than four characters are left, which may still be four bytes
    Scan.cut s.text
      (if (String.ofList rest).utf8ByteSize < 4 then .endOfString else .invalidEscape)
  | '\\' :: c :: rest =>
    match escape? c with
    | none => Scan.cut s.settle .invalidEscape
    | some e => scanString (s.push e) rest
  | c :: rest =>
    if c.toNat < 0x20 then Scan.cut s.settle .controlCharacter else scanString (s.push c) rest

/-- Scan a string behind its opening quote, from its start. -/
def readString (cs : List Char) : Scanned := scanString ⟨.ok [], none⟩ cs

/-- A fault where the text ended or something other than a digit stands: a reader tells the two
apart, a skipper does not. -/
def digitMissing (rest : List Char) : Draft :=
  .broken (if rest.isEmpty then .endOfValue else .invalidNumber) .invalidNumber

/-- Scan an exponent behind its letter. -/
def readExponent (l : Literal) (cs : List Char) : Draft × Option (List Char) :=
  let (negative, cs) := match cs with
    | '-' :: r => (true, r)
    | '+' :: r => (false, r)
    | r => (false, r)
  match Number.Decimal.spanDigits cs with
  | ([], rest) => (digitMissing rest, none)
  | (ds, rest) =>
    let e : Int := Number.Decimal.ofDigits ds
    (.number { l with exponent := some (if negative then -e else e) }, some rest)

/-- Scan what follows the digits of a number: an exponent or nothing. -/
def readTail (l : Literal) (cs : List Char) : Draft × Option (List Char) :=
  match cs with
  | 'e' :: rest | 'E' :: rest => readExponent l rest
  | rest => (.number l, some rest)

/-- Scan a number behind its sign. -/
def readNumber (negative : Bool) (cs : List Char) : Draft × Option (List Char) :=
  match Number.Decimal.spanDigits cs with
  | ([], rest) => (digitMissing rest, none)
  | (0 :: _ :: _, _) => (.broken .invalidNumber .invalidNumber, none)
  | (ds, '.' :: rest) =>
    match Number.Decimal.spanDigits rest with
    | ([], rest) => (digitMissing rest, none)
    | (fs, rest) => readTail ⟨negative, Number.Decimal.ofDigits ds, fs, none⟩ rest
  | (ds, rest) => readTail ⟨negative, Number.Decimal.ofDigits ds, [], none⟩ rest

/-- Scan the rest of a word. -/
def readWord (draft : Draft) : List Char → List Char → Draft × Option (List Char)
  | [], rest => (draft, some rest)
  | _ :: _, [] => (.broken .endOfValue .endOfValue, none)
  | e :: expected, c :: rest =>
    if c = e then readWord draft expected rest else (.broken .expectedWord .expectedWord, none)

mutual

/-- Read a value: its draft, and the text behind it unless a fault ends the reading. The fuel
bounds the nesting and the number of values; twice the length of the text is enough, because a
call that consumes no character is followed by one that does. -/
def readValue : Nat → List Char → Draft × Option (List Char)
  | 0, _ => (.missing .endOfValue, none)
  | fuel + 1, cs =>
    match skipSpace cs with
    | [] => (.missing .endOfValue, none)
    | 'n' :: rest => readWord .null ['u', 'l', 'l'] rest
    | 't' :: rest => readWord (.bool true) ['r', 'u', 'e'] rest
    | 'f' :: rest => readWord (.bool false) ['a', 'l', 's', 'e'] rest
    | '-' :: rest => readNumber true rest
    | '"' :: rest =>
      match readString rest with
      | .whole content rest => (.string content, some rest)
      | .cut r s => (.cut r s, none)
    | '[' :: rest =>
      match skipSpace rest with
      | [] => (.array [] .ended, none)
      | ']' :: rest => (.array [] .closed, some rest)
      | rest =>
        let (items, stop, rest) := readItems fuel rest
        (.array items stop, rest)
    | '\x7b' :: rest =>
      match skipSpace rest with
      | [] => (.object [] .ended none, none)
      | '\x7d' :: rest => (.object [] .closed none, some rest)
      | '"' :: rest =>
        let (members, stop, rest) := readMembers fuel rest
        (.object members stop none, rest)
      | rest => (.object [] .noKey (some (readValue fuel rest).1), none)
    | c :: rest =>
      if '0' ≤ c ∧ c ≤ '9' then readNumber false (c :: rest)
      else (.broken .expectedValue .expectedValue, none)

/-- Read the items of a list from the first one on. -/
def readItems : Nat → List Char → List Draft × ListStop × Option (List Char)
  | 0, _ => ([], .ended, none)
  | fuel + 1, cs =>
    match readValue fuel cs with
    | (v, none) => ([v], .ended, none)
    | (v, some rest) =>
      match skipSpace rest with
      | [] => ([v], .ended, none)
      | ']' :: rest => ([v], .closed, some rest)
      | ',' :: rest =>
        match skipSpace rest with
        | [] => ([v], .endedAfterComma, none)
        | ']' :: _ => ([v], .closedAfterComma, none)
        | rest =>
          let (vs, stop, rest) := readItems fuel rest
          (v :: vs, stop, rest)
      | _ => ([v], .noSeparator, none)

/-- Read the members of an object behind the opening quote of the first key. -/
def readMembers :
    Nat → List Char → List (Except Fault String × Draft) × ObjectStop × Option (List Char)
  | 0, _ => ([], .ended, none)
  | fuel + 1, cs =>
    match readString cs with
    | .cut r s => ([(.error r, .cut r s)], .ended, none)
    | .whole key rest =>
      match skipSpace rest with
      | [] => ([(key, .missing .endOfObject)], .ended, none)
      | ':' :: rest =>
        match readValue fuel rest with
        | (v, none) => ([(key, v)], .ended, none)
        | (v, some rest) =>
          match skipSpace rest with
          | [] => ([(key, v)], .ended, none)
          | '\x7d' :: rest => ([(key, v)], .closed, some rest)
          | ',' :: rest =>
            match skipSpace rest with
            | [] => ([(key, v)], .endedAfterComma, none)
            | '\x7d' :: _ => ([(key, v)], .closedAfterComma, none)
            | '"' :: rest =>
              let (ms, stop, rest) := readMembers fuel rest
              ((key, v) :: ms, stop, rest)
            | _ => ([(key, v)], .noKeyAfterComma, none)
          | _ => ([(key, v)], .noSeparator, none)
      | _ => ([(key, .missing .expectedColon)], .ended, none)

end

namespace Document

/-- The document that characters hold. -/
def ofChars (cs : List Char) : Document :=
  match readValue (2 * (cs.length + 1)) cs with
  | (d, none) => ⟨d, false⟩
  | (d, some rest) => ⟨d, !(skipSpace rest).isEmpty⟩

/-- The document that a text holds. -/
def ofString (s : String) : Document := ofChars s.toList

/-- The value that a document holds, if it has no faults. -/
def toJson? (doc : Document) : Option Json := if doc.trailing then none else doc.draft.toJson?

/-- The document of a value. -/
def ofJson (j : Json) : Document := ⟨Draft.ofJson j, false⟩

end Document

end CheckAgent.Json
