import RuleScript.Json.Progress
import RuleScript.Json.SyntaxError

/-!
The inside of a string, byte by byte, from behind its opening quotation mark to its closing one.
The bytes of the text are collected as they come, those of an escape in the UTF-8 form of the
character that it stands for, and the whole must be UTF-8 when the string closes.
-/

namespace RuleScript.Json

/-! ### Escapes -/

/-- The character behind the letter of a short escape. -/
def shortEscape? (b : UInt8) : Option UInt8 :=
  if b = Byte.quotationMark || b = Byte.backslash || b = Byte.slash then some b
  else if b = Byte.lowerB then some 0x08
  else if b = Byte.lowerF then some 0x0c
  else if b = Byte.lowerN then some Byte.lineFeed
  else if b = Byte.lowerR then some Byte.carriageReturn
  else if b = Byte.lowerT then some Byte.tab
  else none

/-- The number written by hexadecimal digits. -/
def hexValue? (digits : List UInt8) : Option Nat :=
  digits.foldl (fun value? b => do return 16 * (← value?) + (← hexDigit? b)) (some 0)

/-- Whether a sixteen bit unit is the first half of a pair. -/
def isHighSurrogate (unit : Nat) : Bool := 0xd800 ≤ unit && unit ≤ 0xdbff

/-- Whether a sixteen bit unit is the second half of a pair. -/
def isLowSurrogate (unit : Nat) : Bool := 0xdc00 ≤ unit && unit ≤ 0xdfff

/-- The code point that a pair of units stands for. -/
def pairValue (high low : Nat) : Nat := 0x10000 + 0x400 * (high - 0xd800) + (low - 0xdc00)

/-! ### Undecodable bytes -/

/-- The length of the longest UTF-8 text that starts at the byte `i` and is looked for in `fuel`
characters at most. -/
def decodedEnd (bytes : ByteArray) : Nat → Nat → Nat
  | 0, i => i
  | fuel + 1, i =>
    match bytes.utf8DecodeChar? i with
    | some c => decodedEnd bytes fuel (i + c.utf8Size)
    | none => i

/-- The text of some bytes. -/
def textOfBytes (bytes : List UInt8) : Except SyntaxError String :=
  let array := bytes.toByteArray
  match String.fromUTF8? array with
  | some s => .ok s
  | none => .error (.invalidCodePoint (array.size - decodedEnd array array.size 0))

/-! ### The automaton -/

/-- What comes next in a string. -/
inductive StringToken.Phase where
  /-- A byte of the text, a backslash or the closing quotation mark. -/
  | plain
  /-- The letter of an escape. -/
  | letter
  /-- A digit of a unit, those before it given. -/
  | unit (digits : List UInt8)
  /-- The backslash of the second half of a pair. -/
  | pairBackslash (high : Nat)
  /-- The letter of the second half of a pair. -/
  | pairLetter (high : Nat)
  /-- A digit of the second half of a pair, those before it given. -/
  | pairUnit (high : Nat) (digits : List UInt8)
deriving DecidableEq

/-- A string that is being read: the bytes of its text so far, the last one first. -/
structure StringToken where
  collected : List UInt8
  phase : StringToken.Phase
deriving DecidableEq

namespace StringToken

/-- Behind the opening quotation mark. -/
def opened : StringToken := ⟨[], .plain⟩

/-- One more byte of the text. -/
def push (s : StringToken) (b : UInt8) : StringToken := ⟨b :: s.collected, .plain⟩

/-- One more character of the text, given by its code point. -/
def pushCodePoint (s : StringToken) (n : Nat) : StringToken :=
  ⟨(String.utf8EncodeChar (Char.ofNat n)).reverse ++ s.collected, .plain⟩

/-- The same text with something else expected next. -/
def expect (s : StringToken) (phase : Phase) : StringToken := ⟨s.collected, phase⟩

/-- Takes the four digits of a unit that stands alone or begins a pair. -/
def takeUnit (s : StringToken) (digits : List UInt8) : Except SyntaxError StringToken :=
  match hexValue? digits with
  | none => .error .invalidEscape
  | some unit =>
    if isLowSurrogate unit then .error .loneSurrogate
    else if isHighSurrogate unit then .ok (s.expect (.pairBackslash unit))
    else .ok (s.pushCodePoint unit)

/-- Takes the four digits of the unit that ends a pair. -/
def takeLowUnit (s : StringToken) (high : Nat) (digits : List UInt8) :
    Except SyntaxError StringToken :=
  match hexValue? digits with
  | none => .error .invalidEscape
  | some unit =>
    if isLowSurrogate unit then .ok (s.pushCodePoint (pairValue high unit))
    else .error .loneSurrogate

/-- Takes one byte; the closing quotation mark gives the text. -/
def step (s : StringToken) (b : UInt8) : Except SyntaxError (Progress StringToken String) :=
  match s.phase with
  | .plain =>
    if b = Byte.quotationMark then (textOfBytes s.collected.reverse).map .done
    else if b = Byte.backslash then .ok (.more (s.expect .letter))
    else if b < Byte.space then .error .controlCharacter
    else .ok (.more (s.push b))
  | .letter =>
    if b = Byte.lowerU then .ok (.more (s.expect (.unit [])))
    else match shortEscape? b with
      | some c => .ok (.more (s.push c))
      | none => .error .invalidEscape
  | .unit digits =>
    if digits.length < 3 then .ok (.more (s.expect (.unit (digits ++ [b]))))
    else (s.takeUnit (digits ++ [b])).map .more
  | .pairBackslash high =>
    if b = Byte.backslash then .ok (.more (s.expect (.pairLetter high)))
    else .error .escapePairCutShort
  | .pairLetter high =>
    if b = Byte.lowerU then .ok (.more (s.expect (.pairUnit high [])))
    else .error .escapePairCutShort
  | .pairUnit high digits =>
    if digits.length < 3 then .ok (.more (s.expect (.pairUnit high (digits ++ [b]))))
    else (s.takeLowUnit high (digits ++ [b])).map .more

end StringToken

end RuleScript.Json
