import RuleScript.Json.Number
import RuleScript.Json.Quoted

/-!
The compact text of a JSON value: no blanks at all, members in their order.
-/

namespace RuleScript.Json

mutual

/-- The compact text of a value. -/
def Value.compact : Value → String
  | .null => "null"
  | .bool true => "true"
  | .bool false => "false"
  | .number n => n.text
  | .string s => quote s
  | .array items => "[" ++ compactItems items ++ "]"
  | .object members => "\x7b" ++ compactMembers members ++ "\x7d"

/-- The items of an array, with commas between them. -/
def compactItems : List Value → String
  | [] => ""
  | [v] => v.compact
  | v :: w :: rest => v.compact ++ "," ++ compactItems (w :: rest)

/-- The members of an object, with commas between them. -/
def compactMembers : List (String × Value) → String
  | [] => ""
  | [(k, v)] => quote k ++ ":" ++ v.compact
  | (k, v) :: m :: rest => quote k ++ ":" ++ v.compact ++ "," ++ compactMembers (m :: rest)

end

end RuleScript.Json
