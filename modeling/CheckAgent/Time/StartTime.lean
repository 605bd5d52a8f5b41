import CheckAgent.Number.Unsigned
import CheckAgent.Text.Blank
import CheckAgent.Text.Quoted
import CheckAgent.Time.Instant

/-!
# Start times

A job carries its start time as `YYYY-MM-DD HH:MM:SS ZONE`. **The zone** is what follows the last
space: a word of three or more capitals, read as universal time, or a sign and four digits among
which colons are ignored. **The reading** before it is scanned field by field; blanks may stand
before every number, and a year with a sign may have any number of digits.

The reading is judged before the zone, so of two faults the one in the reading is reported.
-/

namespace CheckAgent.StartTime

open CheckAgent.Number CheckAgent.Text

/-- Why a reading is refused. -/
inductive Fault where
  | outOfRange
  | invalid
  | tooShort
  | tooLong
  deriving DecidableEq, Repr

def Fault.message : Fault → String
  | .outOfRange => "input is out of range"
  | .invalid => "input contains invalid characters"
  | .tooShort => "premature end of input"
  | .tooLong => "trailing input"

/-- Why a start time is refused. -/
inductive Error where
  | missingZone (value : String)
  | reading (value : String) (fault : Fault)
  | badZone (value zone : String)
  | outOfRange (value : String)
  deriving DecidableEq, Repr

def Error.message : Error → String
  | .missingZone v => "invalid start time " ++ Quoted.ofString v ++ ": missing time zone"
  | .reading v f => "invalid start time " ++ Quoted.ofString v ++ ": " ++ f.message
  | .badZone v z =>
    "invalid start time " ++ Quoted.ofString v ++ ": bad time zone " ++ Quoted.ofString z
  | .outOfRange v => "invalid start time " ++ Quoted.ofString v

/-! ## The reading -/

/-- The largest number that a field may hold while it is read. -/
def maxField : Nat := Nat.pow 2 63 - 1

/-- Read further digits, at most `width` of them. -/
def moreDigits : Nat → Nat → List Char → Except Fault (Nat × List Char)
  | 0, acc, cs => .ok (acc, cs)
  | _ + 1, acc, [] => .ok (acc, [])
  | width + 1, acc, c :: rest =>
    match Unsigned.digit? c with
    | none => .ok (acc, c :: rest)
    | some d =>
      if maxField < acc * 10 + d then .error .outOfRange else moreDigits width (acc * 10 + d) rest

/-- Read a number of one to `width` digits. -/
def number (width : Nat) : List Char → Except Fault (Nat × List Char)
  | [] => .error .tooShort
  | c :: rest =>
    match Unsigned.digit? c with
    | none => .error .invalid
    | some d => moreDigits (width - 1) d rest

/-- Read a number of two digits at most and require it to lie in a range. -/
def field (low high : Nat) (cs : List Char) : Except Fault (Nat × List Char) := do
  let (n, rest) ← number 2 (trimLeft cs)
  if low ≤ n ∧ n ≤ high then pure (n, rest) else throw .outOfRange

/-- Read a year: four digits at most, or a sign and any number of digits. -/
def year (cs : List Char) : Except Fault (Int × List Char) := do
  let (y, rest) ← match trimLeft cs with
    | '-' :: r => (fun (n, rest) => (-(n : Int), rest)) <$> number r.length r
    | '+' :: r => (fun (n, rest) => ((n : Int), rest)) <$> number r.length r
    | r => (fun (n, rest) => ((n : Int), rest)) <$> number 4 r
  if -(Nat.pow 2 31 : Int) ≤ y ∧ y < Nat.pow 2 31 then pure (y, rest) else throw .outOfRange

def literal (expected : Char) : List Char → Except Fault (List Char)
  | [] => .error .tooShort
  | c :: rest => if c = expected then .ok rest else .error .invalid

/-- The fields of a reading in the order of the text. A sixtieth second is allowed. -/
def fields (cs : List Char) : Except Fault Reading := do
  let (y, cs) ← year cs
  let cs ← literal '-' cs
  let (mo, cs) ← field 1 12 cs
  let cs ← literal '-' cs
  let (d, cs) ← field 1 31 cs
  let (h, cs) ← field 0 23 cs
  let cs ← literal ':' cs
  let (mi, cs) ← field 0 59 cs
  let cs ← literal ':' cs
  let (s, cs) ← field 0 60 cs
  if cs.isEmpty then pure ⟨⟨y, mo, d⟩, h, mi, s⟩ else throw .tooLong

/-- A reading whose date exists and can be counted. -/
def reading (cs : List Char) : Except Fault Reading := do
  let r ← fields cs
  if -262143 ≤ r.date.year ∧ r.date.year ≤ 262142 ∧ r.date.Valid then pure r
  else throw .outOfRange

/-! ## The zone -/

/-- Whether a zone is a word of capitals. -/
def isZoneWord (cs : List Char) : Bool := 3 ≤ cs.length && cs.all fun c => 'A' ≤ c && c ≤ 'Z'

/-- The seconds east of universal time that four digits give. -/
def offsetDigits? (cs : List Char) : Option Int :=
  match (cs.filter (· ≠ ':')).map Unsigned.digit? with
  | [some a, some b, some c, some d] => some ((a * 10 + b) * 3600 + (c * 10 + d) * 60 : Nat)
  | _ => none

/-- The seconds east of universal time of a numeric zone; less than a day either way. -/
def offset? (cs : List Char) : Option Int :=
  match cs with
  | '+' :: ds => (offsetDigits? ds).filter (· < 86400)
  | '-' :: ds => ((offsetDigits? ds).filter (· < 86400)).map (- ·)
  | _ => none

/-- The seconds east of universal time of a zone. -/
def zone? (cs : List Char) : Option Int := if isZoneWord cs then some 0 else offset? cs

/-! ## The whole text -/

/-- The instant of a reading at an offset. A sixtieth second is the leap second after the
fifty-ninth. -/
def instant? (r : Reading) (offset : Int) : Option Instant :=
  let leap := r.second = 60
  let seconds := { r with second := if leap then 59 else r.second }.toSeconds - offset
  if Instant.first ≤ seconds ∧ seconds ≤ Instant.last then
    some ⟨seconds, if leap then 1000000000 else 0⟩
  else none

def read (text : String) : Except Error Instant :=
  let cs := trim text.toList
  let value := String.ofList cs
  match splitLast? ' ' cs with
  | none => .error (.missingZone value)
  | some (before, zone) =>
    match reading before with
    | .error f => .error (.reading value f)
    | .ok r =>
      match zone? zone with
      | none => .error (.badZone value (String.ofList zone))
      | some offset =>
        match instant? r offset with
        | none => .error (.outOfRange value)
        | some i => .ok i

end CheckAgent.StartTime
