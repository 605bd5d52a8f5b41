/-!
# Blank characters

Settings, queue messages and start times are trimmed before they are read. **Blank** means the
Unicode property `White_Space`, so that a no-break space or an ideographic space around a value
counts as padding too, while a zero-width space does not.
-/

namespace CheckAgent.Text

/-- A text as the bytes that encode it, or any other sequence of bytes. -/
abbrev Bytes := List UInt8

/-- Membership in the Unicode property `White_Space`. -/
def isBlank (c : Char) : Bool :=
  let n := c.toNat
  (0x09 ≤ n && n ≤ 0x0D) || n == 0x20 || n == 0x85 || n == 0xA0 || n == 0x1680 ||
    (0x2000 ≤ n && n ≤ 0x200A) || n == 0x2028 || n == 0x2029 || n == 0x202F || n == 0x205F ||
    n == 0x3000

def trimLeft (cs : List Char) : List Char := cs.dropWhile isBlank

def trimRight (cs : List Char) : List Char := (cs.reverse.dropWhile isBlank).reverse

/-- The text without the blanks around it. -/
def trim (cs : List Char) : List Char := trimRight (trimLeft cs)

def strip (s : String) : String := String.ofList (trim s.toList)

/-- Split at the last occurrence of a separator, which is dropped. -/
def splitLast? (sep : Char) : List Char → Option (List Char × List Char)
  | [] => none
  | c :: rest =>
    match splitLast? sep rest with
    | some (before, after) => some (c :: before, after)
    | none => if c = sep then some ([], rest) else none

/-- Split at the first occurrence of a separator, which is dropped. -/
def splitFirst? (sep : Char) : List Char → Option (List Char × List Char)
  | [] => none
  | c :: rest =>
    if c = sep then some ([], rest)
    else (splitFirst? sep rest).map fun (before, after) => (c :: before, after)

end CheckAgent.Text
