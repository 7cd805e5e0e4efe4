import RuleScript.Json.Progress
import RuleScript.Json.SyntaxError
import RuleScript.Json.Value

/-!
A number, byte by byte. Its digits are collected into a significand below `2 ^ 64`. When the next
digit would not fit, the digits that follow in the whole part only shift the number by a place
each, and those that follow in the fraction are dropped. A number without point and exponent whose
digits fit is an integer; every other number is the double that `significand · 10 ^ exponent`
rounds to in a single multiplication or division.
-/

namespace RuleScript.Json

/-! ### From digits to a double -/

/-- The power `10 ^ n` as a double, for `n ≤ 308`. -/
def powerOfTen (n : Nat) : Float := Float.ofScientific 1 false n

/-- The largest power of ten that is a double. -/
def maxPower : Nat := 308

/-- Divides by `10 ^ n`, in steps of `10 ^ 308` as long as something is left to divide. -/
def divideByPower (x : Float) (n : Nat) : Float :=
  if n ≤ maxPower then x / powerOfTen n
  else if x == 0 then x
  else divideByPower (x / powerOfTen maxPower) (n - maxPower)
termination_by n
decreasing_by simp_all [maxPower]; omega

/-- Multiplies by `10 ^ n`, unless the product is too large. -/
def multiplyByPower? (x : Float) (n : Nat) : Option Float :=
  if n ≤ maxPower then
    let product := x * powerOfTen n
    if product.isInf then none else some product
  else if x == 0 then some x
  else none

/-- The double for a significand and an exponent, or none if it is too large. -/
def scaled? (significand : Nat) (exponent : Int) : Option Float :=
  let x := significand.toUInt64.toFloat
  if exponent < 0 then some (divideByPower x exponent.natAbs)
  else multiplyByPower? x exponent.natAbs

/-- The significand with one more digit, if it still fits 64 bits. -/
def appendDigit? (significand digit : Nat) : Option Nat :=
  let longer := 10 * significand + digit
  if longer < UInt64.size then some longer else none

/-! ### The automaton -/

/-- What has been read of a number, behind its sign. -/
inductive NumberToken.Phase where
  /-- Nothing yet. -/
  | start
  /-- A zero, behind which no digit may come. -/
  | zero
  /-- Digits of the whole part. -/
  | whole (significand : Nat)
  /-- More digits of the whole part than fit. -/
  | longWhole (significand exponent : Nat)
  /-- The point. -/
  | point (significand : Nat) (exponent : Int)
  /-- Digits of the fraction. -/
  | fraction (significand : Nat) (exponent : Int)
  /-- More digits of the fraction than fit. -/
  | longFraction (significand : Nat) (exponent : Int)
  /-- The letter of the exponent. -/
  | mark (significand : Nat) (exponent : Int)
  /-- The sign of the exponent. -/
  | signed (significand : Nat) (exponent : Int) (down : Bool)
  /-- Digits of the exponent. -/
  | power (significand : Nat) (exponent : Int) (down : Bool) (written : Nat)
  /-- More digits of the exponent than fit 31 bits, where the number is zero whatever follows. -/
  | vanished
deriving DecidableEq

/-- A number that is being read. -/
structure NumberToken where
  negative : Bool
  phase : NumberToken.Phase
deriving DecidableEq

namespace NumberToken

/-- The sign put before a double. -/
def withSign (negative : Bool) (x : Float) : Number := .float (if negative then -x else x)

/-- The number without point and exponent; `-0` and what lies below `-2 ^ 63` are doubles. -/
def integer (negative : Bool) (significand : Nat) : Number :=
  if negative = false then .natural significand.toUInt64
  else if h : 0 < significand ∧ significand ≤ Nat.pow 2 63 then .negative ⟨significand - 1, by omega⟩
  else withSign true significand.toUInt64.toFloat

/-- The double with the given significand and exponent. -/
def float (negative : Bool) (significand : Nat) (exponent : Int) : Except SyntaxError Number :=
  match scaled? significand exponent with
  | some x => .ok (withSign negative x)
  | none => .error .numberOutOfRange

/-- The exponent moved by what is written behind its letter. -/
def moved (exponent : Int) (down : Bool) (written : Nat) : Int :=
  if down then exponent - written else exponent + written

/-- Behind the letter of the exponent or its sign: the first digit must come. -/
def firstPowerDigit (significand : Nat) (exponent : Int) (down : Bool) (b : UInt8) :
    Except SyntaxError Phase :=
  match digit? b with
  | some d => .ok (.power significand exponent down d)
  | none => .error .invalidNumber

/-- One more digit of the exponent. -/
def nextPowerDigit (significand : Nat) (exponent : Int) (down : Bool) (written digit : Nat) :
    Except SyntaxError Phase :=
  let longer := 10 * written + digit
  if longer < Nat.pow 2 31 then .ok (.power significand exponent down longer)
  else if significand ≠ 0 ∧ down = false then .error .numberOutOfRange
  else .ok .vanished

/-- The number that ends here, where that is allowed: the byte that comes next, if any, is not part
of it. -/
def ended (n : NumberToken) : Except SyntaxError Number :=
  match n.phase with
  | .start | .point .. | .mark .. | .signed .. => .error .invalidNumber
  | .zero => .ok (integer n.negative 0)
  | .whole s => .ok (integer n.negative s)
  | .longWhole s e => float n.negative s e
  | .fraction s e | .longFraction s e => float n.negative s e
  | .power s e down written => float n.negative s (moved e down written)
  | .vanished => .ok (withSign n.negative 0)

/-- Whether a byte is the letter of an exponent. -/
def isMark (b : UInt8) : Bool := b = Byte.lowerE || b = Byte.upperE

/-- The phase behind a byte that continues the number, or none if the number ends before it. -/
def advance (phase : Phase) (b : UInt8) : Except SyntaxError (Option Phase) :=
  match phase with
  | .start =>
    match digit? b with
    | some 0 => .ok (some .zero)
    | some d => .ok (some (.whole d))
    | none => .error .invalidNumber
  | .zero =>
    if (digit? b).isSome then .error .invalidNumber
    else if b = Byte.point then .ok (some (.point 0 0))
    else if isMark b then .ok (some (.mark 0 0))
    else .ok none
  | .whole s =>
    match digit? b with
    | some d =>
      match appendDigit? s d with
      | some longer => .ok (some (.whole longer))
      | none => .ok (some (.longWhole s 1))
    | none =>
      if b = Byte.point then .ok (some (.point s 0))
      else if isMark b then .ok (some (.mark s 0))
      else .ok none
  | .longWhole s e =>
    if (digit? b).isSome then .ok (some (.longWhole s (e + 1)))
    else if b = Byte.point then .ok (some (.point s e))
    else if isMark b then .ok (some (.mark s e))
    else .ok none
  | .point s e =>
    match digit? b with
    | some d =>
      match appendDigit? s d with
      | some longer => .ok (some (.fraction longer (e - 1)))
      | none => .ok (some (.longFraction s e))
    | none => .error .invalidNumber
  | .fraction s e =>
    match digit? b with
    | some d =>
      match appendDigit? s d with
      | some longer => .ok (some (.fraction longer (e - 1)))
      | none => .ok (some (.longFraction s e))
    | none => if isMark b then .ok (some (.mark s e)) else .ok none
  | .longFraction s e =>
    if (digit? b).isSome then .ok (some (.longFraction s e))
    else if isMark b then .ok (some (.mark s e))
    else .ok none
  | .mark s e =>
    if b = Byte.plus then .ok (some (.signed s e false))
    else if b = Byte.minus then .ok (some (.signed s e true))
    else (firstPowerDigit s e false b).map some
  | .signed s e down => (firstPowerDigit s e down b).map some
  | .power s e down written =>
    match digit? b with
    | some d => (nextPowerDigit s e down written d).map some
    | none => .ok none
  | .vanished => if (digit? b).isSome then .ok (some .vanished) else .ok none

/-- Takes one byte; a byte that is not part of the number gives the number, and is not taken. -/
def step (n : NumberToken) (b : UInt8) : Except SyntaxError (Progress NumberToken Number) := do
  match ← advance n.phase b with
  | some phase => return .more ⟨n.negative, phase⟩
  | none => return .done (← n.ended)

/-- The number at the end of the text. -/
def finish (n : NumberToken) : Except SyntaxError Number :=
  match n.phase with
  | .start | .point .. | .mark .. | .signed .. => .error .endInValue
  | _ => n.ended

/-- The number that a byte can begin: a minus sign or a digit. -/
def begin? (b : UInt8) : Option NumberToken :=
  if b = Byte.minus then some ⟨true, .start⟩
  else match digit? b with
    | some 0 => some ⟨false, .zero⟩
    | some d => some ⟨false, .whole d⟩
    | none => none

end NumberToken

end RuleScript.Json
