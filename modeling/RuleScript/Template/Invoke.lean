import RuleScript.Template.Counter
import RuleScript.Template.Tables

/-!
Calling a template function: the number of arguments is checked before anything else is done, and
every call gives the text that stands in its place.
-/

namespace RuleScript

/-- Does what a call asks for. -/
def Call.run : Call → Action String
  | .createEmptyTables => do Tables.create; return ""
  | .addRule name pattern => do Tables.addRule name pattern; return ""
  | .addEmitter name emitter => do Tables.addEmitter name emitter; return ""
  | .constructPeg => Tables.forms
  | .resetVariables => do Counter.reset; return ""
  | .genVar => Counter.next

/-- Calls a function with some arguments. -/
def TemplateFunction.invoke (f : TemplateFunction) (args : List String) : Action String :=
  match Call.ofArgs? f args with
  | some call => do
    Action.log (.calling f args)
    call.run
  | none => Action.fail (.arityMismatch f args.length)

end RuleScript
