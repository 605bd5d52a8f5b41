import CheckAgent.Text.Blank

/-!
# Media types

The media type of a request says what its body is. **It is read strictly**: two tokens with a slash
between them, and parameters behind semicolons, whose values are tokens or quoted. Upper and lower
case are one. A plus divides the subtype, and its part behind the last plus is the suffix.

Whether a body is JSON is all that the agent wants to know.
-/

namespace CheckAgent

open CheckAgent.Text

structure MediaType where
  family : List Char
  subtype : List Char
  suffix : Option (List Char)
  deriving DecidableEq, Repr

namespace MediaType

/-- The characters of a token. -/
def isTokenChar (c : Char) : Bool :=
  c.isAlphanum ||
    c ∈ ['!', '#', '$', '%', '&', '\'', '*', '+', '-', '.', '^', '_', '\x60', '|', '~']

/-- The characters of a quoted value, the quote apart. -/
def isQuotedChar (c : Char) : Bool := 32 ≤ c.toNat && c.toNat ≠ 127

/-- What stands at the start of parameters. -/
inductive ParamPart where
  /-- Blanks or the first character of a name. -/
  | start
  | name
  /-- The first character of a value. -/
  | value
  /-- A value that is a token; it may be empty at the end of the text only. -/
  | token
  /-- A quoted value, whose first character is never the closing quote. -/
  | quoted (first : Bool)
  /-- Behind a quoted value. -/
  | afterQuoted

/-- Whether parameters are well formed from some part on. -/
def paramsOk : ParamPart → List Char → Bool
  | .start, [] => true
  | .start, c :: rest =>
    if c = ' ' then paramsOk .start rest
    else isTokenChar c && paramsOk .name rest
  | .name, [] => false
  | .name, c :: rest =>
    if c = '=' then paramsOk .value rest else isTokenChar c && paramsOk .name rest
  | .value, [] => true
  | .value, c :: rest =>
    if c = '"' then paramsOk (.quoted true) rest else isTokenChar c && paramsOk .token rest
  | .token, [] => true
  | .token, c :: rest =>
    if c = ';' then paramsOk .start rest else isTokenChar c && paramsOk .token rest
  | .quoted _, [] => false
  | .quoted first, c :: rest =>
    if c = '"' ∧ !first then paramsOk .afterQuoted rest
    else isQuotedChar c && paramsOk (.quoted false) rest
  | .afterQuoted, [] => true
  | .afterQuoted, c :: rest =>
    if c = ';' then paramsOk .start rest else c = ' ' && paramsOk .afterQuoted rest

/-- Divide a subtype at its last plus, which is not its first character. -/
def ofParts (family subtype : List Char) : MediaType :=
  match splitLast? '+' subtype with
  | some (before, after) =>
    if before.isEmpty then ⟨family, subtype, none⟩ else ⟨family, before, some after⟩
  | none => ⟨family, subtype, none⟩

def read? (cs : List Char) : Option MediaType := do
  let cs := cs.map Char.toLower
  let family := cs.takeWhile isTokenChar
  let rest ← if family.isEmpty then none else some (cs.drop family.length)
  match rest with
  | '/' :: rest =>
    let subtype := rest.takeWhile isTokenChar
    match rest.drop subtype.length with
    | [] => some (ofParts family subtype)
    | ';' :: params =>
      if !subtype.isEmpty && paramsOk .start params then some (ofParts family subtype) else none
    | _ => none
  | _ => none

/-- Whether a media type is one of JSON. -/
def isJson (m : MediaType) : Bool :=
  m.family = "application".toList &&
    (m.subtype = "json".toList || m.suffix = some "json".toList)

end MediaType

end CheckAgent
