import RuleScript.Text.Unprintable

/-!
Text between quotation marks, as log lines and messages show it: `quoted` escapes the quotation
mark, the backslash and every character that cannot be seen, and leaves all others as they are.
-/

namespace RuleScript.Text

/-- The lower case hexadecimal digit of a number below sixteen. -/
def hexDigit (n : Nat) : Char := Nat.digitChar n

/-- A number in lower case hexadecimal digits, without leading zeros. -/
def hex (n : Nat) : String := String.ofList (Nat.toDigits 16 n)

/-- Whether a character can be seen: a printable ASCII character, or one outside the table of
unprintable ranges. -/
def isVisible (c : Char) : Bool :=
  if c.toNat < 0x80 then 0x20 ≤ c.toNat && c.toNat < 0x7f else !isUnprintable c

/-- One character between quotation marks. -/
def shown (c : Char) : String :=
  match c with
  | '\x00' => "\\0"
  | '\t' => "\\t"
  | '\n' => "\\n"
  | '\r' => "\\r"
  | '"' => "\\\""
  | '\\' => "\\\\"
  | c => if isVisible c then c.toString else "\\u\x7b" ++ hex c.toNat ++ "\x7d"

/-- A text between quotation marks, with what cannot be seen escaped. -/
def quoted (s : String) : String := "\"" ++ String.join (s.toList.map shown) ++ "\""

/-- A list of texts, each between quotation marks. -/
def quotedList (texts : List String) : String :=
  "[" ++ ", ".intercalate (texts.map quoted) ++ "]"

end RuleScript.Text
