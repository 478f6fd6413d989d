/-!
This module contains the reasons for which a text is not JSON.
-/

namespace LuaCodex
namespace Json

/--
What a reader learns about a bad text from the kind of its defect.
-/
inductive Category where
  /-- The text ends within a value. -/
  | eof
  /-- The text is not JSON. -/
  | syntaxError
  /-- The text is JSON of the wrong shape. -/
  | data
deriving DecidableEq, Repr

/--
The name of a category.
-/
def Category.name : Category → String
  | eof => "eof"
  | syntaxError => "syntax"
  | data => "data"

/--
A reason for which a text cannot be read on as JSON.
-/
inductive Fault where
  /-- The text ends where a value is due, or within a literal. -/
  | endInValue
  /-- The text ends between the items of an array. -/
  | endInArray
  /-- The text ends between the parts of an object. -/
  | endInObject
  /-- The text ends within a string. -/
  | endInString
  /-- The text ends within a number. -/
  | endInNumber
  | expectedValue
  | expectedLiteral
  | expectedColon
  | expectedArrayEnd
  | expectedObjectEnd
  | trailingComma
  | keyNotString
  | invalidNumber
  | numberOutOfRange
  | invalidEscape
  /-- An escaped surrogate is not the first half of a pair. -/
  | loneSurrogate
  /-- An escaped first half of a pair has no escape behind it. -/
  | halfPair
  | controlCharacter
  | tooDeep
  | trailingText
deriving DecidableEq, Repr

namespace Fault

/--
The category of a fault.
-/
def category : Fault → Category
  | endInValue | endInArray | endInObject | endInString | endInNumber => .eof
  | _ => .syntaxError

/--
The description of a fault.
-/
def message : Fault → String
  | endInValue | endInNumber => "EOF while parsing a value"
  | endInArray => "EOF while parsing a list"
  | endInObject => "EOF while parsing an object"
  | endInString => "EOF while parsing a string"
  | expectedValue => "expected value"
  | expectedLiteral => "expected ident"
  | expectedColon => "expected `:`"
  | expectedArrayEnd => "expected `,` or `]`"
  | expectedObjectEnd => "expected `,` or `\x7d`"
  | trailingComma => "trailing comma"
  | keyNotString => "key must be a string"
  | invalidNumber => "invalid number"
  | numberOutOfRange => "number out of range"
  | invalidEscape => "invalid escape"
  | loneSurrogate => "lone leading surrogate in hex escape"
  | halfPair => "unexpected end of hex escape"
  | controlCharacter => "control character (\\u0000-\\u001F) found while parsing a string"
  | tooDeep => "recursion limit exceeded"
  | trailingText => "trailing characters"

/--
The fault that counts where the value is passed over. There a number that the text breaks off is an
invalid number.
-/
def inPassing : Fault → Fault
  | endInNumber => invalidNumber
  | fault => fault

end Fault
end Json
end LuaCodex
