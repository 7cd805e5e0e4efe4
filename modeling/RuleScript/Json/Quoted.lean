import RuleScript.Text.Quoted

/-!
The text of a string: quotation marks around it, the quotation mark, the backslash and the control
characters below U+0020 escaped, and every other character as it is.
-/

namespace RuleScript.Json

/-- The escape of a control character that has no letter of its own: four hexadecimal digits. -/
def controlEscape (n : Nat) : String :=
  "\\u00" ++ (Text.hexDigit (n / 16)).toString ++ (Text.hexDigit (n % 16)).toString

/-- One character of a string. -/
def escaped (c : Char) : String :=
  match c with
  | '"' => "\\\""
  | '\\' => "\\\\"
  | '\x08' => "\\b"
  | '\x0c' => "\\f"
  | '\n' => "\\n"
  | '\r' => "\\r"
  | '\t' => "\\t"
  | c => if c.toNat < 0x20 then controlEscape c.toNat else c.toString

/-- The text of a string. -/
def quote (s : String) : String := "\"" ++ String.join (s.toList.map escaped) ++ "\""

end RuleScript.Json
