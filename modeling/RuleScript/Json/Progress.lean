/-!
How a step of an automaton ends.
-/

namespace RuleScript.Json

/-- Either a further state, or the result. -/
inductive Progress (σ α : Type) where
  | more (state : σ)
  | done (result : α)

end RuleScript.Json
