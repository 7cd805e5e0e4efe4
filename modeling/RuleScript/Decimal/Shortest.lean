/-!
The shortest decimal that reads back as a given binary floating-point number.

A positive finite number is `m · 2 ^ q`. The reals that round to it form an interval around it,
whose ends belong to it when `m` is even. `shortest` goes through the decimal grids `10 ^ e` from
the coarsest that can hold one digit of the number to finer ones, and takes the first grid that
has a point in the interval: of the two points next to the number the nearer one, and of two
equally near ones the even one.
-/

namespace RuleScript.Decimal

/-- A decimal number `significand · 10 ^ exponent`. -/
structure Digits where
  significand : Nat
  exponent : Int
deriving DecidableEq, Repr

/-- A fraction, its denominator positive. -/
structure Ratio where
  num : Nat
  den : Nat
deriving DecidableEq, Repr

namespace Ratio

/-- The power `base ^ e`. -/
def power (base : Nat) (e : Int) : Ratio :=
  if e ≥ 0 then ⟨base.pow e.toNat, 1⟩ else ⟨1, base.pow (-e).toNat⟩

/-- The product with a natural number. -/
def scale (r : Ratio) (n : Nat) : Ratio := ⟨r.num * n, r.den⟩

/-- The quotient of two fractions. -/
def div (a b : Ratio) : Ratio := ⟨a.num * b.den, a.den * b.num⟩

end Ratio

/-- The number of decimal digits of a natural number, one for zero. -/
def digitCount (n : Nat) : Nat := (Nat.toDigits 10 n).length

/-- The exponent of the leading decimal digit of a positive fraction: the `e` with
`10 ^ e ≤ r < 10 ^ (e + 1)`. -/
def leadingExponent (r : Ratio) : Int :=
  if r.den ≤ r.num then (digitCount (r.num / r.den) : Int) - 1
  else Int.negOfNat (digitCount ((r.den - 1) / r.num))

/-! ### The interval of a binary number -/

/-- A positive binary number `significand · 2 ^ exponent`. The gap below a power of two is half the
gap above it, unless the number is among the least of its kind; `narrowBelow` says so. -/
structure Binary where
  significand : Nat
  exponent : Int
  narrowBelow : Bool
deriving DecidableEq, Repr

namespace Binary

/-- A quarter of the gap above the number, the unit in which the interval is measured. -/
def quarterGap (b : Binary) : Ratio := .power 2 (b.exponent - 2)

/-- The number in quarter gaps. -/
def center (b : Binary) : Nat := 4 * b.significand

/-- The lower end of the interval in quarter gaps. -/
def lower (b : Binary) : Nat := b.center - (if b.narrowBelow then 1 else 2)

/-- The upper end of the interval in quarter gaps. -/
def upper (b : Binary) : Nat := b.center + 2

/-- Whether the point `d` of a grid lies in the interval, `unit` being a quarter gap measured on
that grid. -/
def contains (b : Binary) (unit : Ratio) (d : Nat) : Bool :=
  let point := d * unit.den
  let low := b.lower * unit.num
  let high := b.upper * unit.num
  if b.significand % 2 = 0 then low ≤ point && point ≤ high else low < point && point < high

end Binary

/-! ### Going through the grids -/

/-- The point of the grid `10 ^ e` that stands for the number: of its two neighbours on the grid
the nearer one that lies in the interval. -/
def candidate? (b : Binary) (e : Int) : Option Digits :=
  let unit := b.quarterGap.div (.power 10 e)
  let value := b.center * unit.num
  let d := value / unit.den
  let toBelow := value - d * unit.den
  let toAbove := (d + 1) * unit.den - value
  let belowIsNearer := toBelow < toAbove || (toBelow = toAbove && d % 2 = 0)
  let below := 0 < d && b.contains unit d
  let above := b.contains unit (d + 1)
  if below && (belowIsNearer || !above) then some ⟨d, e⟩
  else if above then some ⟨d + 1, e⟩
  else none

/-- Removes the zeros at the end of the significand, at most `fuel` of them. -/
def trimZeros : Nat → Digits → Digits
  | 0, d => d
  | fuel + 1, d =>
    if d.significand ≠ 0 ∧ d.significand % 10 = 0 then
      trimZeros fuel ⟨d.significand / 10, d.exponent + 1⟩
    else d

/-- The shortest decimal that reads back as the number, without zeros at its end. Seventeen digits
are always enough for a double. -/
def shortest (b : Binary) : Digits :=
  let e := leadingExponent (b.quarterGap.scale b.center)
  let found := (List.range 17).findSome? fun n : Nat => candidate? b (e - n)
  trimZeros 18 (found.getD ⟨0, 0⟩)

end RuleScript.Decimal
