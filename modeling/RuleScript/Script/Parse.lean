import RuleScript.Json.Read
import RuleScript.Script.Comments
import RuleScript.Script.Step
import RuleScript.System.Access

/-!
Parsing a script: its comments are taken out while its JSON is read, and the value is looked at only
when the whole text has been read.
-/

namespace RuleScript

open RuleScript.Json

/-- Why there is no script. -/
inductive ScriptError where
  | notOpened (e : SystemError)
  | notJson (e : ReadError)
  | badStep (e : StepError)

/-- The wording of a script error. -/
def ScriptError.message : ScriptError → String
  | .notOpened e => "Could not open file: " ++ e.message
  | .notJson e => "Invalid JSON syntax: " ++ e.message
  | .badStep e => e.message

namespace Script

/-- The script that a feed holds, its comments already taken out. -/
def ofFeed (feed : Feed) : Except ScriptError Script :=
  match Json.read feed with
  | .ok v => (Script.ofValue v).mapError .badStep
  | .error e => .error (.notJson e)

/-- The script that some bytes hold. -/
def ofBytes (bytes : List UInt8) : Except ScriptError Script := ofFeed (withoutComments bytes)

/-- The script that a text holds. -/
def parse (text : String) : Except ScriptError Script := ofBytes (bytesOf text)

/-- The script that an opened file holds. -/
def ofSource : Except SystemError Source → Except ScriptError Script
  | .error e => .error (.notOpened e)
  | .ok .directory => ofFeed (.broken (.system .isADirectory))
  | .ok (.bytes content) => ofBytes content

end Script

end RuleScript
