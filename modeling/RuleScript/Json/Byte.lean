/-!
The bytes that mean something in JSON, and what one byte can be: a blank between tokens, a digit, a
hexadecimal digit.
-/

namespace RuleScript.Json

/-! ### Names -/

namespace Byte

abbrev tab : UInt8 := 0x09
abbrev lineFeed : UInt8 := 0x0a
abbrev carriageReturn : UInt8 := 0x0d
abbrev space : UInt8 := 0x20
abbrev quotationMark : UInt8 := 0x22
abbrev asterisk : UInt8 := 0x2a
abbrev plus : UInt8 := 0x2b
abbrev comma : UInt8 := 0x2c
abbrev minus : UInt8 := 0x2d
abbrev point : UInt8 := 0x2e
abbrev slash : UInt8 := 0x2f
abbrev zero : UInt8 := 0x30
abbrev nine : UInt8 := 0x39
abbrev colon : UInt8 := 0x3a
abbrev upperA : UInt8 := 0x41
abbrev upperE : UInt8 := 0x45
abbrev upperF : UInt8 := 0x46
abbrev openBracket : UInt8 := 0x5b
abbrev backslash : UInt8 := 0x5c
abbrev closeBracket : UInt8 := 0x5d
abbrev lowerA : UInt8 := 0x61
abbrev lowerB : UInt8 := 0x62
abbrev lowerE : UInt8 := 0x65
abbrev lowerF : UInt8 := 0x66
abbrev lowerL : UInt8 := 0x6c
abbrev lowerN : UInt8 := 0x6e
abbrev lowerR : UInt8 := 0x72
abbrev lowerS : UInt8 := 0x73
abbrev lowerT : UInt8 := 0x74
abbrev lowerU : UInt8 := 0x75
abbrev openBrace : UInt8 := 0x7b
abbrev closeBrace : UInt8 := 0x7d

end Byte

/-! ### Classes -/

/-- A blank: space, line feed, tab or carriage return. -/
def isBlank (b : UInt8) : Bool :=
  b = Byte.space || b = Byte.lineFeed || b = Byte.tab || b = Byte.carriageReturn

/-- The value of a decimal digit. -/
def digit? (b : UInt8) : Option Nat :=
  if Byte.zero ≤ b && b ≤ Byte.nine then some (b.toNat - Byte.zero.toNat) else none

/-- The value of a hexadecimal digit, its letter in either case. -/
def hexDigit? (b : UInt8) : Option Nat :=
  if Byte.zero ≤ b && b ≤ Byte.nine then some (b.toNat - Byte.zero.toNat)
  else if Byte.upperA ≤ b && b ≤ Byte.upperF then some (b.toNat - Byte.upperA.toNat + 10)
  else if Byte.lowerA ≤ b && b ≤ Byte.lowerF then some (b.toNat - Byte.lowerA.toNat + 10)
  else none

end RuleScript.Json
