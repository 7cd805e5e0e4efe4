import RuleScript.Rule.Decode
import RuleScript.Json.Compact
import RuleScript.Template.Function

/-!
What can go wrong while template functions run on a scope.
-/

namespace RuleScript

/-- Why the value under a key cannot be used. -/
inductive Malformed where
  /-- It is no table of rules. -/
  | table (e : TableError)
  /-- It is no counter. -/
  | counter (found : Json.Value)
  /-- It is a counter that has no successor. -/
  | exhausted

/-- The wording of a reason. -/
def Malformed.message : Malformed → String
  | .table e => e.message
  | .counter found => "expected a non-negative integer, found " ++ found.compact
  | .exhausted => "counter exhausted"

/-- What can go wrong while template functions run on a scope. -/
inductive TemplateError where
  /-- A key has no binding. -/
  | uninitialized (key : String)
  /-- A key is bound to a value that cannot be used. -/
  | malformed (key : String) (reason : Malformed)
  /-- No rule has the name that an emitter was given for. -/
  | ruleNotFound (name : String)
  /-- No function has the name. -/
  | unknownFunction (name : String)
  /-- A function was called with a wrong number of arguments. -/
  | arityMismatch (function : TemplateFunction) (found : Nat)
  /-- The root frame cannot be left. -/
  | scopeUnderflow

/-- The wording of an error. -/
def TemplateError.message : TemplateError → String
  | .uninitialized key => s!"Scope key '{key}' is used before it was initialized"
  | .malformed key reason => s!"Scope key '{key}' holds a malformed value: {reason.message}"
  | .ruleNotFound name => s!"The rule '{name}' is referenced but never defined"
  | .unknownFunction name => s!"Unknown template function: {name}"
  | .arityMismatch f found => s!"{f.name} expects {f.arity} argument(s) but got {found}"
  | .scopeUnderflow => "Cannot pop the root scope"

/-- The function of a name. -/
def TemplateFunction.ofName (name : String) : Except TemplateError TemplateFunction :=
  match ofName? name with
  | some f => .ok f
  | none => .error (.unknownFunction name)

end RuleScript
