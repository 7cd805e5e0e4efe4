import RuleScript.Script.Step
import RuleScript.Template.Invoke

/-!
Rendering a script: the texts of its steps one after another. The first step that fails ends the
rendering and its output is lost, but what the steps did to the scope stays, and every frame that
was entered is left again.
-/

namespace RuleScript

/-- Does an action in a frame of its own, which is left even when the action fails. -/
def Action.inFrame {α : Type} (a : Action α) : Action α := do
  push
  log (.enteringScope (← depth))
  let result ← attempt a
  log (.leavingScope (← depth))
  pop
  ofExcept result

mutual

/-- The texts that a step gives. -/
def Step.texts : Step → Action (List String)
  | .text s => do
    Action.log (.emitting s)
    return [s]
  | .call f args => do
    let text ← f.invoke args
    Action.log (.returned f text)
    return [text]
  | .scope steps => Action.inFrame (Script.texts steps)

/-- The texts that some steps give, in their order. -/
def Script.texts : List Step → Action (List String)
  | [] => return []
  | step :: rest => do
    let first ← step.texts
    (first ++ ·) <$> Script.texts rest

end

/-- Renders a script: the texts of its steps put together. -/
def Script.render (script : Script) : Action String := String.join <$> Script.texts script

end RuleScript
