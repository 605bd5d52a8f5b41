import CheckAgent.Json.Draft
import CheckAgent.Text.Quoted

/-!
# Decoding drafts

A decoder walks a draft in the order of its text and stops at the first thing that is wrong. **A
record** may be written as an object, whose members come in any order and of which unknown ones
are skipped, or as a list of its fields in their declared order. `Field` describes one field by
how it enters a partial record, and `members` and `items` read the two shapes; what a record makes
of fields that never came is its own business.

An error keeps **the path** to the value in which it arose.
-/

namespace CheckAgent.Json

open CheckAgent.Number CheckAgent.Text

/-- A step from a value into one of its parts. -/
inductive Segment where
  | name (text : String)
  | index (n : Nat)
  deriving DecidableEq, Repr

/-- What a decoder found where it expected something else. -/
inductive Found where
  | null
  | bool (b : Bool)
  | integer (n : Int)
  | real (b : Binary)
  | text (s : String)
  | list
  | object
  deriving DecidableEq, Repr

/-- Why a draft does not decode. -/
inductive Cause where
  | syntactic (fault : Fault)
  | wrongType (found : Found) (expected : String)
  | wrongValue (found : Found) (expected : String)
  | wrongLength (n : Nat) (expected : String)
  | missingField (name : String)
  | duplicateField (name : String)
  | unknownVariant (name : String) (variants : List String)
  | refused (message : String)
  deriving DecidableEq, Repr

/-- A decoding error and where it arose. -/
structure Error where
  path : List Segment
  cause : Cause
  deriving DecidableEq, Repr

/-- The three kinds of decoding errors: a text that ends too early, a text that is no JSON, and a
value that is not the wanted one. -/
inductive Category where
  | ended
  | malformed
  | mismatched
  deriving DecidableEq, Repr

namespace Found

/-- The wording of a found value. -/
def message : Found → String
  | .null => "null"
  | .bool b => "boolean `" ++ (if b then "true" else "false") ++ "`"
  | .integer n => "integer `" ++ toString n ++ "`"
  | .real b => "floating point `" ++ Decimal.ofBinary binary64 Decimal.pointed b ++ "`"
  | .text s => "string " ++ Quoted.ofString s
  | .list => "sequence"
  | .object => "map"

end Found

namespace Cause

def message : Cause → String
  | .syntactic f => f.message
  | .wrongType found expected => "invalid type: " ++ found.message ++ ", expected " ++ expected
  | .wrongValue found expected => "invalid value: " ++ found.message ++ ", expected " ++ expected
  | .wrongLength n expected => "invalid length " ++ toString n ++ ", expected " ++ expected
  | .missingField name => "missing field `" ++ name ++ "`"
  | .duplicateField name => "duplicate field `" ++ name ++ "`"
  | .unknownVariant name variants =>
    "unknown variant `" ++ name ++ "`, expected one of " ++
      ", ".intercalate (variants.map fun v => "`" ++ v ++ "`")
  | .refused message => message

end Cause

namespace Error

/-- An error at the value that is decoded. -/
def here (cause : Cause) : Error := ⟨[], cause⟩

/-- The error seen from one step further out. -/
def within (segment : Segment) (e : Error) : Error := ⟨segment :: e.path, e.cause⟩

/-- The kind of an error. -/
def category (e : Error) : Category :=
  match e.cause with
  | .syntactic f => if f.isEnd then .ended else .malformed
  | _ => .mismatched

/-- The wording of an error, without its path. -/
def message (e : Error) : String := e.cause.message

/-- The text of a path: names joined by points, positions in brackets. -/
def pathText : List Segment → String
  | [] => ""
  | s :: rest => rest.foldl
      (fun text s => match s with
        | .name n => text ++ "." ++ n
        | .index i => text ++ "[" ++ toString i ++ "]")
      (match s with
        | .name n => n
        | .index i => "[" ++ toString i ++ "]")

/-- The wording of an error behind its path, if it has one. -/
def located (e : Error) : String :=
  if e.path.isEmpty then e.message else pathText e.path ++ ": " ++ e.message

end Error

/-- What a decoder gives. -/
abbrev Decoded (α : Type) := Except Error α

/-- A fault as an error of the value at hand. -/
def fault {α : Type} (f : Fault) : Decoded α := .error (.here (.syntactic f))

/-- Attribute an error to a part of the value at hand. -/
def within {α : Type} (segment : Segment) (r : Decoded α) : Decoded α :=
  r.mapError (Error.within segment)

/-- Turn a fault that may be there into a result. -/
def check (f : Option Fault) : Decoded Unit :=
  match f with
  | none => .ok ()
  | some f => fault f

namespace Draft

/-! ## Single values -/

/-- The error for a value of a wrong kind. A string or a number is read first, and its own fault
comes first. -/
def mismatch (expected : String) (d : Draft) : Error :=
  .here <| match d with
    | .null => .wrongType .null expected
    | .bool b => .wrongType (.bool b) expected
    | .number l =>
      match l.value with
      | .ok (.natural n) => .wrongType (.integer n) expected
      | .ok (.negative n) => .wrongType (.integer (-n)) expected
      | .ok (.real b) => .wrongType (.real b) expected
      | .error f => .syntactic f
    | .string (.ok s) => .wrongType (.text s) expected
    | .string (.error f) => .syntactic f
    | .array _ _ => .wrongType .list expected
    | .object _ _ _ => .wrongType .object expected
    | .missing f | .cut f _ | .broken f _ => .syntactic f

def text : Draft → Decoded String
  | .string (.ok s) => .ok s
  | d => .error (d.mismatch "a string")

/-- Read a number; `accept` judges its value, and a number it does not take is of a wrong kind. -/
def numeric {α : Type} (expected : String) (accept : Number → Option (Decoded α)) :
    Draft → Decoded α
  | .number l =>
    match l.value with
    | .error f => fault f
    | .ok n => (accept n).getD (.error ((Draft.number l).mismatch expected))
  | d => .error (d.mismatch expected)

/-- Read a whole number of 64 bits without a sign. -/
def word : Draft → Decoded Nat :=
  numeric "u64" fun
    | .natural n => some (.ok n)
    | .negative n => some (.error (.here (.wrongValue (.integer (-n)) "u64")))
    | .real _ => none

/-- Read a whole number of 64 bits with a sign. -/
def signedWord : Draft → Decoded Int :=
  numeric "i64" fun
    | .natural n =>
      if n < Nat.pow 2 63 then some (.ok n)
      else some (.error (.here (.wrongValue (.integer n) "i64")))
    | .negative n => some (.ok (-n))
    | .real _ => none

/-- Read a number as the nearest value of 32 bits; one beyond the format is an infinity. -/
def single : Draft → Decoded Binary :=
  numeric "f32" fun
    | .natural n => some (.ok (binary32.ofNat n))
    | .negative n => some (.ok (binary32.ofInt (-n)))
    | .real b => some (.ok (b.convert binary32))

def optional {α : Type} (read : Draft → Decoded α) : Draft → Decoded (Option α)
  | .null => .ok none
  | d => some <$> read d

/-- The fault between a name and its value, if there is one. It belongs to the object. -/
def separation : Draft → Option Fault
  | .missing .expectedColon => some .expectedColon
  | .missing .endOfObject => some .endOfObject
  | _ => none

/-- Read items up to the end of their list, counted from `i`. -/
def elements {α : Type} (read : Draft → Decoded α) (stop : ListStop) (i : Nat) :
    List Draft → Decoded (List α)
  | [] => do check stop.reading; pure []
  | d :: rest => do
    let v ← within (.index i) (read d)
    let vs ← elements read stop (i + 1) rest
    pure (v :: vs)

def list {α : Type} (read : Draft → Decoded α) : Draft → Decoded (List α)
  | .array items stop => elements read stop 0 items
  | d => .error (d.mismatch "a sequence")

/-- Read the members of an object with free names. -/
def pairs {α : Type} (read : Draft → Decoded α) (stop : ObjectStop) :
    List (Except Fault String × Draft) → Decoded (List (String × α))
  | [] => do check stop.reading; pure []
  | (.error f, _) :: _ => fault f
  | (.ok k, d) :: rest => do
    check d.separation
    let v ← within (.name k) (read d)
    let vs ← pairs read stop rest
    pure ((k, v) :: vs)

def dictionary {α : Type} (read : Draft → Decoded α) : Draft → Decoded (List (String × α))
  | .object members stop _ => pairs read stop members
  | d => .error (d.mismatch "a map")

/-- The error where a choice is written as something other than a string or an object. -/
def noChoice {α : Type} : Draft → Decoded α
  | .string (.error f) | .cut f _ | .missing f => fault f
  | _ => fault .expectedValue

/-- What must follow the only member of a choice. -/
def choiceEnd (more : List (Except Fault String × Draft)) (stop : ObjectStop) : Decoded Unit :=
  match more, stop with
  | [], .closed => .ok ()
  | [], .ended => fault .endOfObject
  | _, _ => fault .expectedValue

/-- Read one of a few names: a string, or an object whose only member has that name and the value
`null`. -/
def choice {α : Type} (pick : String → Option α) (names : List String) : Draft → Decoded α
  | .string (.ok s) => named s
  | .object ((.ok s, v) :: more) stop _ => do
    let choice ← named s
    check v.separation
    match v with
      | .null => pure ()
      | v => within (.name s) (.error (v.mismatch "unit"))
    choiceEnd more stop
    pure choice
  | .object ((.error f, _) :: _) _ _ => fault f
  | .object [] .ended _ => fault .endOfValue
  | .object [] _ (some found) => .error (found.mismatch "variant identifier")
  | .object [] _ none => fault .expectedValue
  | d => noChoice d
where
  named (s : String) : Decoded α :=
    match pick s with
    | some a => .ok a
    | none => .error (.here (.unknownVariant s names))

end Draft

/-! ## Records -/

/-- A field of a record that is being read: its name, whether it has come, and how its value
enters. -/
structure Field (σ : Type) where
  name : String
  seen : σ → Bool
  put : σ → Draft → Decoded σ

/-- The field of a partial record that is kept by a pair of accessors. -/
def Field.of {σ α : Type} (name : String) (get : σ → Option α) (set : σ → α → σ)
    (read : Draft → Decoded α) : Field σ :=
  ⟨name, fun s => (get s).isSome, fun s d => set s <$> read d⟩

/-- Read one member of a record. A repeated field is refused before its value is read. -/
def member {σ : Type} (fields : List (Field σ)) (s : σ) (name : String) (d : Draft) : Decoded σ :=
  match fields.find? (·.name = name) with
  | some f =>
    if f.seen s then .error (.here (.duplicateField name))
    else do check d.separation; within (.name name) (f.put s d)
  | none => do
    check d.separation
    match d.skip with
    | .ok () => .ok s
    | .error f => within (.name name) (fault f)

def members {σ : Type} (fields : List (Field σ)) (stop : ObjectStop) (s : σ) :
    List (Except Fault String × Draft) → Decoded σ
  | [] => do check stop.reading; pure s
  | (.error f, _) :: _ => fault f
  | (.ok name, d) :: rest => do members fields stop (← member fields s name d) rest

/-- Read the items of a record that is written as a list, from field `i` on. `shape` names the
record and its size; a list may stop before a field that is `optional`. -/
def items {σ : Type} (shape : String) (optional : String → Bool) (stop : ListStop) (s : σ)
    (i : Nat) : List (Field σ) → List Draft → Decoded σ
  | [], [] => do check stop.finishing; pure s
  | [], _ :: _ => fault .trailingCharacters
  | f :: fields, [] => do
    check stop.reading
    if optional f.name then items shape optional stop s (i + 1) fields []
    else .error (.here (.wrongLength i shape))
  | f :: fields, d :: rest => do
    items shape optional stop (← within (.index i) (f.put s d)) (i + 1) fields rest

/-- A record type: its name, its fields in declared order, and those that a list may leave out. -/
structure Record (σ : Type) where
  name : String
  fields : List (Field σ)
  optional : String → Bool
  empty : σ

/-- The name of a record with its size, as errors on its length put it. -/
def Record.shape {σ : Type} (r : Record σ) : String :=
  "struct " ++ r.name ++ " with " ++ toString r.fields.length ++
    (if r.fields.length = 1 then " element" else " elements")

/-- Read the fields of a record in either shape. -/
def Record.read {σ : Type} (r : Record σ) : Draft → Decoded σ
  | .object ms stop _ => members r.fields stop r.empty ms
  | .array is stop => items r.shape r.optional stop r.empty 0 r.fields is
  | d => .error (d.mismatch ("struct " ++ r.name))

/-- A field that must have come. -/
def require {α : Type} (name : String) : Option α → Decoded α
  | some a => .ok a
  | none => .error (.here (.missingField name))

/-- Decode a whole document: nothing but blanks may follow the value. -/
def Document.decode {α : Type} (read : Draft → Decoded α) (doc : Document) : Decoded α := do
  let v ← read doc.draft
  if doc.trailing then fault .trailingCharacters else pure v

/-- Decode bytes. Those that are not UTF-8 are a fault, unless there is one before it. -/
def decodeBytes {α : Type} (read : Draft → Decoded α) (bytes : Bytes) : Decoded α :=
  match Utf8.decode? bytes with
  | some cs => (Document.ofChars cs).decode read
  | none => do
    let _ ← (Document.ofChars (Utf8.decodeLossy bytes)).decode read
    fault .invalidCodePoint

end CheckAgent.Json
