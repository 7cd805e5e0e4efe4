import RuleScript.Json.Pretty
import RuleScript.Rule.Table

/-!
The text that a rule table is exported as: the indented JSON of the value that it is kept under.
-/

namespace RuleScript

/-- The text that a table is exported as. -/
def RuleTable.exported (t : RuleTable) : String := t.toValue.pretty

end RuleScript
