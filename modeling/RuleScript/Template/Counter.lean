import RuleScript.Template.Action

/-!
The counter that a scope keeps under the key `variable`, from which fresh names are made: `v0`,
`v1`, `v2` and so on.
-/

namespace RuleScript.Counter

/-- The key of the counter. -/
def key : String := "variable"

/-- The name made from a number. -/
def name (n : UInt64) : String := "v" ++ toString n.toNat

/-- Binds a counter that starts at zero in the innermost frame. -/
def reset : Action Unit := Action.add key (.natural 0)

/-- The number that comes next. -/
def current : Action UInt64 := do
  let v ← Action.get key
  match v.asNatural? with
  | some n => return n
  | none => Action.fail (.malformed key (.counter v))

/-- Takes the next name. The last number is never taken: it has no successor. -/
def next : Action String := do
  let n ← current
  if n.toNat + 1 < UInt64.size then
    Action.modify key (.natural (n + 1))
    return name n
  else Action.fail (.malformed key .exhausted)

end RuleScript.Counter
