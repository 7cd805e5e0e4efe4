import RuleScript.Json.Compact

/-!
The indented text of a JSON value: each item and each member on a line of its own, four blanks
further in than the brackets around it, and empty brackets closed at once.
-/

namespace RuleScript.Json

/-- A new line, `depth` levels further in than the outermost. -/
def newline (depth : Nat) : String := "\n" ++ String.ofList (List.replicate (4 * depth) ' ')

mutual

/-- The indented text of a value that stands `depth` levels in. -/
def Value.prettyAt (depth : Nat) : Value → String
  | .array [] => "[]"
  | .array (v :: rest) => "[" ++ prettyItems depth (v :: rest) ++ newline depth ++ "]"
  | .object [] => "\x7b\x7d"
  | .object (m :: rest) => "\x7b" ++ prettyMembers depth (m :: rest) ++ newline depth ++ "\x7d"
  | .string s => quote s
  | .number n => n.text
  | .bool b => (Value.bool b).compact
  | .null => Value.null.compact

/-- The items of an array whose brackets stand `depth` levels in. -/
def prettyItems (depth : Nat) : List Value → String
  | [] => ""
  | [v] => newline (depth + 1) ++ v.prettyAt (depth + 1)
  | v :: w :: rest =>
    newline (depth + 1) ++ v.prettyAt (depth + 1) ++ "," ++ prettyItems depth (w :: rest)

/-- The members of an object whose braces stand `depth` levels in. -/
def prettyMembers (depth : Nat) : List (String × Value) → String
  | [] => ""
  | [(k, v)] => newline (depth + 1) ++ quote k ++ ": " ++ v.prettyAt (depth + 1)
  | (k, v) :: m :: rest =>
    newline (depth + 1) ++ quote k ++ ": " ++ v.prettyAt (depth + 1) ++ ","
      ++ prettyMembers depth (m :: rest)

end

/-- The indented text of a value. -/
def Value.pretty (v : Value) : String := v.prettyAt 0

end RuleScript.Json
