/-!
The functions that a template can call, and calls whose arguments fit.

* `TemplateFunction.ofName?_eq_some_iff`: a function is found under its own name and no other;
* `Call.ofArgs?_isSome_iff`: arguments fit exactly when their number is the function's arity.
-/

namespace RuleScript

/-- A function that a template can call. -/
inductive TemplateFunction where
  | createEmptyTables
  | addRule
  | addEmitter
  | constructPeg
  | resetVariables
  | genVar
deriving DecidableEq, Repr

namespace TemplateFunction

/-- All functions. -/
def all : List TemplateFunction :=
  [createEmptyTables, addRule, addEmitter, constructPeg, resetVariables, genVar]

/-- The name under which a template calls a function. -/
def name : TemplateFunction → String
  | createEmptyTables => "createEmptyTables"
  | addRule => "addRule"
  | addEmitter => "addEmitter"
  | constructPeg => "constructpeg"
  | resetVariables => "resetVariables"
  | genVar => "genvar"

/-- The number of arguments that a function takes. -/
def arity : TemplateFunction → Nat
  | addRule | addEmitter => 2
  | createEmptyTables | constructPeg | resetVariables | genVar => 0

/-- The function of a name. -/
def ofName? (name : String) : Option TemplateFunction := all.find? fun f => f.name = name

/-- The place of a function among all functions. -/
def index (f : TemplateFunction) : Nat := all.idxOf f

theorem mem_all (f : TemplateFunction) : f ∈ all := by
  cases f <;> decide

@[simp] theorem ofName?_name (f : TemplateFunction) : ofName? f.name = some f := by
  cases f <;> decide

theorem name_of_ofName? {name : String} {f : TemplateFunction} (h : ofName? name = some f) :
    f.name = name := by
  simpa using List.find?_some h

theorem ofName?_eq_some_iff (name : String) (f : TemplateFunction) :
    ofName? name = some f ↔ f.name = name :=
  ⟨name_of_ofName?, fun h => h ▸ ofName?_name f⟩

end TemplateFunction

/-- A call with the arguments that its function takes. -/
inductive Call where
  | createEmptyTables
  | addRule (name pattern : String)
  | addEmitter (name emitter : String)
  | constructPeg
  | resetVariables
  | genVar
deriving DecidableEq, Repr

namespace Call

/-- The call of a function with the given arguments, if they fit. -/
def ofArgs? : TemplateFunction → List String → Option Call
  | .createEmptyTables, [] => some .createEmptyTables
  | .addRule, [name, pattern] => some (.addRule name pattern)
  | .addEmitter, [name, emitter] => some (.addEmitter name emitter)
  | .constructPeg, [] => some .constructPeg
  | .resetVariables, [] => some .resetVariables
  | .genVar, [] => some .genVar
  | _, _ => none

theorem ofArgs?_isSome_iff (f : TemplateFunction) (args : List String) :
    (ofArgs? f args).isSome ↔ args.length = f.arity := by
  match args with
  | [] => cases f <;> simp [ofArgs?, TemplateFunction.arity]
  | [_] => cases f <;> simp [ofArgs?, TemplateFunction.arity]
  | [_, _] => cases f <;> simp [ofArgs?, TemplateFunction.arity]
  | _ :: _ :: _ :: _ => cases f <;> simp [ofArgs?, TemplateFunction.arity]

end Call

end RuleScript
