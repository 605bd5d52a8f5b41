import CheckAgent.Json.Literal

/-!
# JSON values

A JSON value is a tree whose objects **keep their members in order**, with repeated names, so that
a law about the order or the repetition of members can be stated. `render` writes a value without
blanks.
-/

namespace CheckAgent

/-- A JSON value. -/
inductive Json where
  | null
  | bool (value : Bool)
  | number (literal : Json.Literal)
  | string (text : String)
  | array (items : List Json)
  | object (members : List (String × Json))
  deriving Repr

namespace Json

instance : Inhabited Json := ⟨.null⟩

/-- A whole number. -/
def ofNat (n : Nat) : Json := .number (.ofNat n)

/-- A whole number with a sign. -/
def ofInt (n : Int) : Json := .number (.ofInt n)

/-- A text or `null`. -/
def ofOption (s : Option String) : Json := (s.map Json.string).getD .null

/-- A floating-point value; an infinity has no number and becomes `null`. -/
def ofBinary (f : Number.Format) (b : Number.Binary) : Json :=
  ((Literal.ofBinary? f b).map Json.number).getD .null

/-- The value of a member, the first one where the name is repeated. -/
def get? (name : String) : Json → Option Json
  | .object members => (members.find? (·.1 = name)).map (·.2)
  | _ => none

/-! ## Text -/

/-- Four hexadecimal digits. -/
def hex4 (n : Nat) : List Char :=
  let ds := Nat.toDigits 16 n
  List.replicate (4 - ds.length) '0' ++ ds

/-- A character inside a string. -/
def renderChar (c : Char) : List Char :=
  match c with
  | '"' => ['\\', '"']
  | '\\' => ['\\', '\\']
  | '\n' => ['\\', 'n']
  | '\r' => ['\\', 'r']
  | '\t' => ['\\', 't']
  | '\x08' => ['\\', 'b']
  | '\x0c' => ['\\', 'f']
  | c => if c.toNat < 0x20 then '\\' :: 'u' :: hex4 c.toNat else [c]

/-- A string with its quotes. -/
def renderString (s : String) : List Char := '"' :: s.toList.flatMap renderChar ++ ['"']

mutual

def chars : Json → List Char
  | .null => ['n', 'u', 'l', 'l']
  | .bool true => ['t', 'r', 'u', 'e']
  | .bool false => ['f', 'a', 'l', 's', 'e']
  | .number l => l.text
  | .string s => renderString s
  | .array items => '[' :: itemChars items ++ [']']
  | .object members => '\x7b' :: memberChars members ++ ['\x7d']

/-- The items of a list, separated by commas. -/
def itemChars : List Json → List Char
  | [] => []
  | [v] => v.chars
  | v :: rest => v.chars ++ ',' :: itemChars rest

/-- The members of an object, separated by commas. -/
def memberChars : List (String × Json) → List Char
  | [] => []
  | [(k, v)] => renderString k ++ ':' :: v.chars
  | (k, v) :: rest => renderString k ++ ':' :: v.chars ++ ',' :: memberChars rest

end

/-- `chars` as a string. -/
def render (j : Json) : String := String.ofList j.chars

end Json

end CheckAgent
