import CheckAgent.Http.HostName

/-!
# Addresses of services

An address names a scheme and, for the schemes of the web, a host. **Reading it is forgiving**:
blanks around it and line breaks in it are dropped, a backslash counts as a slash, and any number
of slashes leads to the host. What is refused is an address without a scheme, a host that is
missing or no host, and a port that is no number of 16 bits.

A host is a name, or a number address: four numbers, of which the last may stand for several, or
eight groups in brackets. A name whose last part is a number is meant as a number address.
-/

namespace CheckAgent

open CheckAgent.Text

/-- Why a text is no address. -/
inductive UrlFault where
  | relative
  | emptyHost
  | invalidName
  | invalidHostCharacter
  | invalidIpv4
  | invalidIpv6
  | invalidPort
  deriving DecidableEq, Repr

def UrlFault.message : UrlFault → String
  | .relative => "relative URL without a base"
  | .emptyHost => "empty host"
  | .invalidName => "invalid international domain name"
  | .invalidHostCharacter => "invalid domain character"
  | .invalidIpv4 => "invalid IPv4 address"
  | .invalidIpv6 => "invalid IPv6 address"
  | .invalidPort => "invalid port number"

inductive Host where
  | name (text : String)
  | ipv4 (address : Nat)
  | ipv6 (text : String)
  deriving DecidableEq, Repr

/-- An address. What follows the host and the port is kept as it is written. -/
structure Url where
  scheme : String
  host : Option Host
  port : Option Nat
  rest : String
  deriving DecidableEq, Repr

/-- The schemes: those of the web have a host, the one of files may have one. -/
inductive SchemeKind where
  | web
  | file
  | other
  deriving DecidableEq, Repr

namespace Url

/-! ## Number addresses -/

/-- The value of a text in a base up to sixteen. -/
def numeral? (base : Nat) (cs : List Char) : Option Nat :=
  cs.foldlM
    (fun n c => match hexDigit? c with
      | some d => if d < base then some (n * base + d) else none
      | none => none)
    0

/-- A part of an IPv4 address. It is octal behind a zero, and hexadecimal behind a zero and an
`x`. -/
def ipv4Part? (cs : List Char) : Option Nat :=
  match cs with
  | [] => none
  | '0' :: 'x' :: rest | '0' :: 'X' :: rest => numeral? 16 rest
  | '0' :: c :: rest => numeral? 8 (c :: rest)
  | cs => numeral? 10 cs

/-- The parts of a name, an empty last one apart. -/
def parts (cs : List Char) : List (List Char) :=
  let all := HostName.split '.' cs
  if all.getLast? = some [] then all.dropLast else all

/-- Whether a name is meant as a number address. -/
def endsInNumber (cs : List Char) : Bool :=
  match (parts cs).getLast? with
  | some last => (!last.isEmpty && last.all fun c => '0' ≤ c && c ≤ '9') || (ipv4Part? last).isSome
  | none => false

/-- Read an IPv4 address. The last part fills the bytes that the others leave. -/
def ipv4? (cs : List Char) : Option Nat := do
  let ps := parts cs
  let ns ← ps.mapM ipv4Part?
  let last ← ns.getLast?
  let others := ns.dropLast
  if 4 < ns.length ∨ others.any (255 < ·) ∨ Nat.pow 256 (4 - others.length) ≤ last then none
  else
    let leading := (others.zip [3, 2, 1, 0]).map fun (n, place) => n * Nat.pow 256 place
    some (leading.foldl (· + ·) last)

/-- A group of an IPv6 address. -/
def isGroup (cs : List Char) : Bool :=
  !cs.isEmpty && cs.length ≤ 4 && cs.all fun c => (hexDigit? c).isSome

/-- A decimal byte without a leading zero. -/
def isByte (cs : List Char) : Bool :=
  match cs with
  | [] => false
  | ['0'] => true
  | '0' :: _ => false
  | cs => (numeral? 10 cs).any (· ≤ 255)

/-- The number of groups in a text, of which the last one may be four bytes, which count twice. -/
def groups? (bytesAllowed : Bool) (cs : List Char) : Option Nat :=
  if cs.isEmpty then some 0
  else
    let gs := HostName.split ':' cs
    match gs.getLast? with
    | none => none
    | some last =>
      let bytes := HostName.split '.' last
      if !gs.dropLast.all isGroup then none
      else if isGroup last then some gs.length
      else if bytesAllowed && bytes.length = 4 && bytes.all isByte then some (gs.length + 1)
      else none

/-- Divide a text at the first two colons in a row. -/
def splitGap : List Char → Option (List Char × List Char)
  | ':' :: ':' :: rest => some ([], rest)
  | c :: rest => (splitGap rest).map fun (before, after) => (c :: before, after)
  | [] => none

/-- Whether a text is an IPv6 address: eight groups, or fewer with a gap. -/
def isIpv6 (cs : List Char) : Bool :=
  match splitGap cs with
  | none => groups? true cs = some 8
  | some (before, after) =>
    match groups? false before, groups? true after with
    | some m, some n => m + n ≤ 7
    | _, _ => false

/-! ## Hosts -/

def bracketed (cs : List Char) : Except UrlFault Host :=
  match cs.getLast? with
  | some ']' =>
    if isIpv6 cs.dropLast then .ok (.ipv6 (String.ofList cs.dropLast)) else .error .invalidIpv6
  | _ => .error .invalidIpv6

def webHost (cs : List Char) : Except UrlFault Host :=
  match cs with
  | '[' :: rest => bracketed rest
  | cs =>
    match HostName.canonical? cs with
    | none => .error .invalidName
    | some name =>
      if name.isEmpty then .error .emptyHost
      else if endsInNumber name then
        match ipv4? name with
        | some n => .ok (.ipv4 n)
        | none => .error .invalidIpv4
      else .ok (.name (String.ofList name))

/-- Characters that the host of another scheme must not hold. -/
def isForbiddenElsewhere (c : Char) : Bool := c = '\x00' || c ∈ "\t\n\r #/:<>?@[\\]^|".toList

/-- Read a host of another scheme, which is kept as it is. -/
def otherHost (cs : List Char) : Except UrlFault Host :=
  match cs with
  | '[' :: rest => bracketed rest
  | cs =>
    if cs.any isForbiddenElsewhere then .error .invalidHostCharacter
    else .ok (.name (String.ofList cs))

/-! ## The parts of an address -/

/-- Whether a character ends the part of an address that holds the host. -/
def endsAuthority (kind : SchemeKind) (c : Char) : Bool :=
  c = '/' || c = '?' || c = '#' || (kind ≠ .other && c = '\\')

/-- The host at the start of a text: up to a colon that is not in brackets. -/
def hostText (inBrackets : Bool) : List Char → List Char
  | [] => []
  | c :: rest =>
    if c = ':' ∧ !inBrackets then []
    else c :: hostText (if c = '[' then true else if c = ']' then false else inBrackets) rest

/-- Read a port, which may be empty. -/
def portOf (cs : List Char) : Except UrlFault (Option Nat) :=
  if cs.all fun c => '0' ≤ c && c ≤ '9' then
    match numeral? 10 cs with
    | some n => if n < 65536 then .ok (if cs.isEmpty then none else some n) else .error .invalidPort
    | none => .error .invalidPort
  else .error .invalidPort

/-- Read what follows the slashes: the host, a port, and the rest. Whatever stands before the last
at sign names a user. -/
def authority (kind : SchemeKind) (scheme : String) (cs : List Char) : Except UrlFault Url := do
  let whole := cs.takeWhile fun c => !endsAuthority kind c
  let rest := cs.drop whole.length
  let (user, place) := match splitLast? '@' whole with
    | some (user, place) => (some user, place)
    | none => (none, whole)
  let text := hostText false place
  let after := place.drop text.length
  let needed := kind = .web || !after.isEmpty || match user with
    | some user => !user.isEmpty || !rest.isEmpty
    | none => false
  if text.isEmpty && needed then throw .emptyHost
  let host ← if kind = .web then webHost text else otherHost text
  let port ← match after with
    | _ :: digits => portOf (digits.takeWhile (· ≠ '\\'))
    | [] => pure none
  pure ⟨scheme, some host, port, String.ofList rest⟩

/-- Whether a text is a drive letter with a colon or a bar. -/
def isDrive (cs : List Char) : Bool :=
  match cs with
  | [c, d] => c.isAlpha && (d = ':' || d = '|')
  | _ => false

/-- Read the address of a file, which may name a host. -/
def file (cs : List Char) : Except UrlFault Url :=
  let isSlash (c : Char) : Bool := c = '/' || c = '\\'
  match cs with
  | a :: b :: rest =>
    if isSlash a && isSlash b then do
      let text := rest.takeWhile fun c => !endsAuthority .file c
      if text.isEmpty || isDrive text then pure ⟨"file", none, none, String.ofList rest⟩
      else
        let host ← webHost text
        pure ⟨"file", some host, none, String.ofList (rest.drop text.length)⟩
    else .ok ⟨"file", none, none, String.ofList cs⟩
  | cs => .ok ⟨"file", none, none, String.ofList cs⟩

/-- The kind of a scheme. -/
def kindOf (scheme : String) : SchemeKind :=
  if scheme = "file" then .file
  else if scheme ∈ ["http", "https", "ws", "wss", "ftp"] then .web
  else .other

/-- The scheme at the start of a text, in small letters, and what follows its colon. -/
def splitScheme (cs : List Char) : Option (String × List Char) :=
  let isSchemeChar (c : Char) : Bool := c.isAlphanum || c = '+' || c = '-' || c = '.'
  let scheme := cs.takeWhile isSchemeChar
  match scheme, cs.drop scheme.length with
  | c :: _, ':' :: rest =>
    if c.isAlpha then some (String.ofList (scheme.map Char.toLower), rest) else none
  | _, _ => none

/-- Drop what does not belong to an address: controls and spaces around it, tabs and line breaks
in it. -/
def clean (cs : List Char) : List Char :=
  let isPadding (c : Char) : Bool := c.toNat ≤ 0x20
  let trimmed := ((cs.dropWhile isPadding).reverse.dropWhile isPadding).reverse
  trimmed.filter fun c => c ≠ '\t' ∧ c ≠ '\n' ∧ c ≠ '\r'

def read (s : String) : Except UrlFault Url :=
  match splitScheme (clean s.toList) with
  | none => .error .relative
  | some (scheme, rest) =>
    match kindOf scheme with
    | .web => authority .web scheme (rest.dropWhile fun c => c = '/' || c = '\\')
    | .file => file rest
    | .other =>
      match rest with
      | '/' :: '/' :: rest => authority .other scheme rest
      | rest => .ok ⟨scheme, none, none, String.ofList rest⟩

end Url

end CheckAgent
