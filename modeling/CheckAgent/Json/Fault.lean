/-!
# Faults of JSON text

What can be wrong with a text that should hold one JSON value, and how it is worded. A text that
**ends too early** is told apart from one that goes on wrongly, because a service may treat the
two differently.
-/

namespace CheckAgent.Json

/-- A fault of a JSON text. -/
inductive Fault where
  | endOfValue
  | endOfList
  | endOfObject
  | endOfString
  | expectedColon
  | expectedListSeparator
  | expectedObjectSeparator
  | expectedWord
  | expectedValue
  | invalidEscape
  | invalidNumber
  | numberOutOfRange
  | invalidCodePoint
  | controlCharacter
  | keyNotString
  | loneSurrogate
  | trailingComma
  | trailingCharacters
  | unfinishedSurrogate
  deriving DecidableEq, Repr

namespace Fault

/-- Whether the text ended where more was needed. -/
def isEnd : Fault → Bool
  | .endOfValue | .endOfList | .endOfObject | .endOfString => true
  | _ => false

def message : Fault → String
  | .endOfValue => "EOF while parsing a value"
  | .endOfList => "EOF while parsing a list"
  | .endOfObject => "EOF while parsing an object"
  | .endOfString => "EOF while parsing a string"
  | .expectedColon => "expected `:`"
  | .expectedListSeparator => "expected `,` or `]`"
  | .expectedObjectSeparator => "expected `,` or `\x7d`"
  | .expectedWord => "expected ident"
  | .expectedValue => "expected value"
  | .invalidEscape => "invalid escape"
  | .invalidNumber => "invalid number"
  | .numberOutOfRange => "number out of range"
  | .invalidCodePoint => "invalid unicode code point"
  | .controlCharacter => "control character (\\u0000-\\u001F) found while parsing a string"
  | .keyNotString => "key must be a string"
  | .loneSurrogate => "lone leading surrogate in hex escape"
  | .trailingComma => "trailing comma"
  | .trailingCharacters => "trailing characters"
  | .unfinishedSurrogate => "unexpected end of hex escape"

end Fault

end CheckAgent.Json
