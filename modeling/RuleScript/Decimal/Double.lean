import RuleScript.Decimal.Shortest

/-!
A double taken apart: its sign, and what kind of number stands behind the sign. `Double.ofFloat`
reads both from the bits, so that a finite number becomes `significand · 2 ^ exponent` exactly.
-/

namespace RuleScript.Decimal

/-- The magnitude of a double. -/
inductive Magnitude where
  | zero
  | finite (b : Binary)
  | notFinite
deriving DecidableEq, Repr

/-- A double as a sign and a magnitude. -/
structure Double where
  negative : Bool
  magnitude : Magnitude
deriving DecidableEq, Repr

namespace Double

/-- The magnitude written in the lower 63 bits: eleven bits of exponent, 52 of fraction. -/
def magnitudeOfBits (bits : Nat) : Magnitude :=
  let fraction : Nat := bits % Nat.pow 2 52
  let field : Nat := bits / Nat.pow 2 52 % Nat.pow 2 11
  if field = 2047 then .notFinite
  else if field = 0 then
    if fraction = 0 then .zero else .finite ⟨fraction, -1074, false⟩
  else .finite ⟨Nat.pow 2 52 + fraction, (field : Int) - 1075, fraction = 0 && 1 < field⟩

/-- Takes a double apart. -/
def ofFloat (x : Float) : Double :=
  let bits : Nat := x.toBits.toNat
  ⟨Nat.pow 2 63 ≤ bits, magnitudeOfBits bits⟩

end Double

end RuleScript.Decimal
