import RuleScript.Rule.Decode
import RuleScript.Template.Action

/-!
The rule table that a scope keeps under the key `rules`. Every operation reads the table that is
visible, makes a new one of it and puts that in its place.
-/

namespace RuleScript.Tables

/-- The key of the table. -/
def key : String := "rules"

/-- The table that is visible. -/
def load : Action RuleTable := do
  let v ← Action.get key
  Action.ofExcept ((RuleTable.ofValue v).mapError fun e => .malformed key (.table e))

/-- Puts a table in the place of the one that is visible. -/
def store (t : RuleTable) : Action Unit := Action.modify key t.toValue

/-- Binds an empty table in the innermost frame. -/
def create : Action Unit := Action.add key RuleTable.empty.toValue

/-- Adds a rule. -/
def addRule (name pattern : String) : Action Unit := do
  let t := (← load).withRule name pattern
  Action.log (.addedRule name t.size)
  store t

/-- Attaches an emitter to the first rule of a name. -/
def addEmitter (name emitter : String) : Action Unit := do
  match (← load).withEmitter? name emitter with
  | some t =>
    Action.log (.attachedEmitter name)
    store t
  | none => Action.fail (.ruleNotFound name)

/-- The forms of all rules. -/
def forms : Action String := do return (← load).forms

end RuleScript.Tables
