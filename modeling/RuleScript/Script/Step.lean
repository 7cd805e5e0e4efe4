import RuleScript.Json.Compact
import RuleScript.Template.Error

/-!
The steps of a script, and the JSON that they are written in: a text as a string, a call as the
array of its function's name and its arguments, and a nested scope as the object whose only key is
`scope` with the array of its steps. `Script.ofValue` reads a script and reports the first step
that is wrong, in the order in which the steps stand.

`Script.ind` is the induction principle of scripts, by their first step, where a nested scope hands
on both what it holds and what follows it.
-/

namespace RuleScript

open RuleScript.Json (Value)

/-- A step of a script. -/
inductive Step where
  /-- A text to be copied. -/
  | text (s : String)
  /-- A call of a template function. -/
  | call (function : TemplateFunction) (args : List String)
  /-- Steps in a frame of their own. -/
  | scope (steps : List Step)
deriving Repr

/-- A script. -/
abbrev Script := List Step

/-- The induction principle of scripts: a property holds of every script once it holds of the empty
one and is inherited by a text or a call put in front of a script, and by a nested scope put in
front, from its own steps and from the script behind. -/
@[elab_as_elim]
theorem Script.ind {P : List Step → Prop} (nil : P [])
    (text : ∀ x rest, P rest → P (.text x :: rest))
    (call : ∀ f args rest, P rest → P (.call f args :: rest))
    (scope : ∀ inner rest, P inner → P rest → P (.scope inner :: rest))
    (steps : List Step) : P steps :=
  @Step.rec_1 (fun step => ∀ rest, P rest → P (step :: rest)) P text call
    (fun inner ih rest hrest => scope inner rest ih hrest) nil
    (fun _ rest hstep hrest => hstep rest hrest) steps

/-! ### Writing -/

/-- The key of a nested scope. -/
def Step.scopeKey : String := "scope"

mutual

/-- The value that a step is written as. -/
def Step.toValue : Step → Value
  | .text s => .string s
  | .call f args => .array (.string f.name :: args.map .string)
  | .scope steps => .object [(Step.scopeKey, .array (Script.toValues steps))]

/-- The values that some steps are written as. -/
def Script.toValues : List Step → List Value
  | [] => []
  | step :: rest => step.toValue :: Script.toValues rest

end

/-- The value that a script is written as. -/
def Script.toValue (script : Script) : Value := .array (Script.toValues script)

/-! ### Reading -/

/-- Why a value is not a script. -/
inductive StepError where
  | notAScript
  | emptyCall
  | nameNotString (found : Value)
  | unknownFunction (name : String)
  | argumentNotString (name : String) (found : Value)
  | notSingleKey
  | scopeNotArray
  | notAStep (found : Value)

/-- The wording of a step error. -/
def StepError.message : StepError → String
  | .notAScript => "A render script must be an array of steps"
  | .emptyCall => "A function call must not be empty"
  | .nameNotString found => s!"Function name must be a string, found {found.compact}"
  | .unknownFunction name => (TemplateError.unknownFunction name).message
  | .argumentNotString name found =>
    s!"Arguments of '{name}' must be strings, found {found.compact}"
  | .notSingleKey => s!"A scope must be an object with the single key '{Step.scopeKey}'"
  | .scopeNotArray => s!"The value of '{Step.scopeKey}' must be an array of steps"
  | .notAStep found => s!"'{found.compact}' is neither text, a function call nor a scope"

/-- The arguments of a call of the given name. -/
def Step.argsOfValues (name : String) : List Value → Except StepError (List String)
  | [] => .ok []
  | .string s :: rest => (argsOfValues name rest).map (s :: ·)
  | v :: _ => .error (.argumentNotString name v)

/-- The call written as the array of the given values. -/
def Step.callOfValues : List Value → Except StepError Step
  | [] => .error .emptyCall
  | .string name :: rest =>
    match TemplateFunction.ofName? name with
    | some f => (argsOfValues name rest).map (.call f)
    | none => .error (.unknownFunction name)
  | v :: _ => .error (.nameNotString v)

mutual

/-- The step that a value stands for. -/
def Step.ofValue : Value → Except StepError Step
  | .string s => .ok (.text s)
  | .array items => Step.callOfValues items
  | .object [(key, .array items)] =>
    if key = Step.scopeKey then (Script.ofValues items).map .scope else .error .notSingleKey
  | .object [(key, _)] =>
    if key = Step.scopeKey then .error .scopeNotArray else .error .notSingleKey
  | .object _ => .error .notSingleKey
  | v => .error (.notAStep v)

/-- The steps that some values stand for. -/
def Script.ofValues : List Value → Except StepError (List Step)
  | [] => .ok []
  | v :: rest => do
    let step ← Step.ofValue v
    let steps ← Script.ofValues rest
    return step :: steps

end

/-- The script that a value stands for. -/
def Script.ofValue : Value → Except StepError Script
  | .array items => Script.ofValues items
  | _ => .error .notAScript

end RuleScript
