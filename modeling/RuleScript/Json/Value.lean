import RuleScript.Entries

/-!
JSON values. An object is the list of its members in the order in which they stand. A text may
repeat a key; `Value.merged` is the value that such a text denotes, in which a repeated key keeps
its first place and takes its last value.
-/

namespace RuleScript.Json

/-- A number: an integer that fits 64 bits with or without a sign, or a double. -/
inductive Number where
  /-- An integer from `0` to `2 ^ 64 - 1`. -/
  | natural (n : UInt64)
  /-- The negative integer `-(n + 1)`. -/
  | negative (n : Fin (Nat.pow 2 63))
  | float (x : Float)
deriving DecidableEq

/-- A JSON value. -/
inductive Value where
  | null
  | bool (b : Bool)
  | number (n : Number)
  | string (s : String)
  | array (items : List Value)
  | object (members : List (String × Value))

namespace Value

/-- The number `n`. -/
def natural (n : UInt64) : Value := .number (.natural n)

/-- The integer of a value that is one and not negative. -/
def asNatural? : Value → Option UInt64
  | .number (.natural n) => some n
  | _ => none

end Value

/-! ### Repeated keys -/

mutual

/-- The value that a text with the given items and members denotes, repeated keys merged
throughout. -/
def Value.merged : Value → Value
  | .array items => .array (mergedItems items)
  | .object members => .object (Entries.merge (mergedMembers members))
  | v => v

/-- The items of an array, each merged. -/
def mergedItems : List Value → List Value
  | [] => []
  | v :: rest => v.merged :: mergedItems rest

/-- The members of an object as they stand, the value of each merged. -/
def mergedMembers : List (String × Value) → List (String × Value)
  | [] => []
  | (k, v) :: rest => (k, v.merged) :: mergedMembers rest

end

end RuleScript.Json
