import CheckAgent.Text.Percent
import CheckAgent.Text.Punycode

/-!
# Host names

A host name is written in one of many ways, of which **the canonical one** is kept: percent escapes
are decoded, letters are small, full-width forms and other dots become the plain ones, and
characters that nobody can see are dropped. What remains must not hold a character that has a
meaning in an address, and a label in ASCII form must stand for a label that has no plainer form.
-/

namespace CheckAgent.HostName

open CheckAgent.Text

def isIgnored (c : Char) : Bool :=
  let n := c.toNat
  n = 0xAD || n = 0x200B || n = 0x2060 || n = 0x2064 || n = 0xFEFF || (0xFE00 ≤ n && n ≤ 0xFE0F)

def isDot (c : Char) : Bool := c.toNat ∈ [0x3002, 0xFF0E, 0xFF61]

/-- The canonical form of a character. A blank of any width is a space. -/
def canonicalChar (c : Char) : Char :=
  let n := c.toNat
  if isDot c then '.'
  else if 0xFF01 ≤ n && n ≤ 0xFF5E then (Char.ofNat (n - 0xFEE0)).toLower
  else if isBlank c && 0xA0 ≤ n then ' '
  else c.toLower

/-- ASCII characters that a host name must not hold. -/
def isForbidden (c : Char) : Bool :=
  c.toNat ≤ 0x20 || c.toNat = 0x7F || c ∈ "%#/:<>?@[\\]^|".toList

/-- Characters beyond ASCII that a host name must not hold: controls, private ones, and those that
are no characters. -/
def isDisallowed (c : Char) : Bool :=
  let n := c.toNat
  (0x80 ≤ n && n ≤ 0x9F) || (0x2028 ≤ n && n ≤ 0x202E) || (0xE000 ≤ n && n ≤ 0xF8FF) ||
    (0xFDD0 ≤ n && n ≤ 0xFDEF) || (0xFFF9 ≤ n && n ≤ 0xFFFF) || 0xE0000 ≤ n ||
    n % 0x10000 = 0xFFFE || n % 0x10000 = 0xFFFF

/-- Whether a label is one that a name may hold. -/
def isLabel (label : List Char) : Bool :=
  match label with
  | 'x' :: 'n' :: '-' :: '-' :: rest =>
    match Punycode.decode? rest with
    | some cs =>
      cs.any (fun c => 0x80 ≤ c.toNat) &&
        cs.all fun c => !isDisallowed c && !isForbidden c && !isIgnored c && canonicalChar c = c
    | none => false
  | _ => true

def split (sep : Char) : List Char → List (List Char)
  | [] => [[]]
  | c :: rest =>
    if c = sep then [] :: split sep rest
    else
      match split sep rest with
      | [] => [[c]]
      | s :: more => (c :: s) :: more

/-- The canonical form of a host name. -/
def canonical? (cs : List Char) : Option (List Char) := do
  let decoded ← Utf8.decode? (Percent.decode cs)
  let name := (decoded.filter fun c => !isIgnored c).map canonicalChar
  if name.any isForbidden || name.any isDisallowed then none
  else if (split '.' name).all isLabel then some name
  else none

end CheckAgent.HostName
