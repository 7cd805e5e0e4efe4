import RuleScript.Decimal.Double
import RuleScript.Json.Value

/-!
The text of a number. An integer is written in decimal digits. A double is written with the fewest
digits that read back: positional, with at least one digit after the point, when its leading digit
stands between `10 ^ (-5)` and `10 ^ 15`, and otherwise with an exponent that always has a sign.
-/

namespace RuleScript.Json

open RuleScript.Decimal (Digits Double shortest)

/-- A run of zeros. -/
def zeros (n : Nat) : String := String.ofList (List.replicate n '0')

/-- Digits with a point after the first `place` of them, or with zeros up to the point. -/
def positional (digits : String) (place : Nat) : String :=
  if digits.length ≤ place then digits ++ zeros (place - digits.length) ++ ".0"
  else String.ofList (digits.toList.take place) ++ "." ++ String.ofList (digits.toList.drop place)

/-- Digits with a point after the first one, if there are more, and the exponent of that digit. -/
def scientific (digits : String) (e : Int) : String :=
  let mantissa := match digits.toList with
    | [] | [_] => digits
    | first :: rest => first.toString ++ "." ++ String.ofList rest
  mantissa ++ "e" ++ (if e < 0 then "-" else "+") ++ toString e.natAbs

/-- The text of a positive decimal number. -/
def decimalText (d : Digits) : String :=
  let digits := toString d.significand
  let leading := d.exponent + digits.length - 1
  if leading < -5 ∨ 15 < leading then scientific digits leading
  else if leading < 0 then "0." ++ zeros (-leading - 1).toNat ++ digits
  else positional digits (leading.toNat + 1)

/-- The text of a double; one that is not finite has no number text and is written as `null`. -/
def floatText (x : Float) : String :=
  let double := Double.ofFloat x
  let sign := if double.negative then "-" else ""
  match double.magnitude with
  | .zero => sign ++ "0.0"
  | .finite b => sign ++ decimalText (shortest b)
  | .notFinite => "null"

/-- The text of a number. -/
def Number.text : Number → String
  | .natural n => toString n.toNat
  | .negative n => "-" ++ toString (n.val + 1)
  | .float x => floatText x

end RuleScript.Json
