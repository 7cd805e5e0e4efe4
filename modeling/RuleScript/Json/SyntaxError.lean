import RuleScript.Json.Byte

/-!
What can be wrong with a JSON text, and where. A position counts lines from one and, within a line,
the bytes taken since the last line feed, so that it stands behind the last byte taken.
-/

namespace RuleScript.Json

/-! ### Positions -/

/-- A place in a text: the line, and the bytes taken on it. -/
structure Position where
  line : Nat
  column : Nat
deriving DecidableEq, Repr

namespace Position

/-- Before the first byte. -/
def start : Position := ⟨1, 0⟩

/-- The place behind one more byte. -/
def advance (p : Position) (b : UInt8) : Position :=
  if b = Byte.lineFeed then ⟨p.line + 1, 0⟩ else ⟨p.line, p.column + 1⟩

/-- Some columns further back on the same line. -/
def back (p : Position) (columns : Nat) : Position := ⟨p.line, p.column - columns⟩

/-- The place as messages name it. -/
def text (p : Position) : String := s!"line {p.line} column {p.column}"

end Position

/-! ### Causes -/

/-- A reason why a text is not JSON. -/
inductive SyntaxError where
  | endInValue
  | endInArray
  | endInObject
  | endInString
  | expectedColon
  | expectedCommaOrBracket
  | expectedCommaOrBrace
  /-- A wrong letter in `true`, `false` or `null`. -/
  | expectedIdent
  | expectedValue
  | invalidEscape
  | invalidNumber
  | numberOutOfRange
  /-- The bytes of a string are not UTF-8; `undecoded` of them follow the valid ones. -/
  | invalidCodePoint (undecoded : Nat)
  | controlCharacter
  | keyMustBeString
  /-- A low surrogate without a high one before it, or a high one without a low one behind it. -/
  | loneSurrogate
  /-- A high surrogate with no further escape behind it. -/
  | escapePairCutShort
  | trailingComma
  | trailingCharacters
  | tooDeep
deriving DecidableEq, Repr

namespace SyntaxError

/-- The wording of a reason. -/
def message : SyntaxError → String
  | endInValue => "EOF while parsing a value"
  | endInArray => "EOF while parsing a list"
  | endInObject => "EOF while parsing an object"
  | endInString => "EOF while parsing a string"
  | expectedColon => "expected `:`"
  | expectedCommaOrBracket => "expected `,` or `]`"
  | expectedCommaOrBrace => "expected `,` or `\x7d`"
  | expectedIdent => "expected ident"
  | expectedValue => "expected value"
  | invalidEscape => "invalid escape"
  | invalidNumber => "invalid number"
  | numberOutOfRange => "number out of range"
  | invalidCodePoint _ => "invalid unicode code point"
  | controlCharacter => "control character (\\u0000-\\u001F) found while parsing a string"
  | keyMustBeString => "key must be a string"
  | loneSurrogate => "lone leading surrogate in hex escape"
  | escapePairCutShort => "unexpected end of hex escape"
  | trailingComma => "trailing comma"
  | trailingCharacters => "trailing characters"
  | tooDeep => "recursion limit exceeded"

/-- Where a reason is reported that was found when the bytes up to `p` had been taken: right there,
save that broken text in a string points about at its first bad byte. -/
def place (e : SyntaxError) (p : Position) : Position :=
  match e with
  | invalidCodePoint undecoded => p.back undecoded
  | _ => p

end SyntaxError

/-- A message with the place that it is about. -/
def atPosition (message : String) (p : Position) : String := message ++ " at " ++ p.text

end RuleScript.Json
