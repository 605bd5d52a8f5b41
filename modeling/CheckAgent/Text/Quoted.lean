import CheckAgent.Text.Invisible

/-!
# Quoted text

Messages show the text they complain about **between double quotes**. The quote, the backslash
and the usual controls have two-character escapes; every other character that a reader could not
see is written as `\u` and its number in braces. An apostrophe stands for itself.
-/

namespace CheckAgent.Text.Quoted

/-- The digits of a number in base sixteen, without leading zeros. -/
def hexText (n : Nat) : List Char := Nat.toDigits 16 n

/-- The quoted form of one character. -/
def encodeChar (c : Char) : List Char :=
  match c with
  | '"' => ['\\', '"']
  | '\\' => ['\\', '\\']
  | '\n' => ['\\', 'n']
  | '\r' => ['\\', 'r']
  | '\t' => ['\\', 't']
  | '\x00' => ['\\', '0']
  | c => if isInvisible c then ['\\', 'u', '\x7b'] ++ hexText c.toNat ++ ['\x7d'] else [c]

/-- The quoted form of a text. -/
def encode (cs : List Char) : List Char := '"' :: cs.flatMap encodeChar ++ ['"']

def ofString (s : String) : String := String.ofList (encode s.toList)

end CheckAgent.Text.Quoted
