import Mathlib.Tactic.Common
import RuleScript.Rule.Decode

/-!
Tables read back from the values that they are kept under: `RuleTable.ofValue_toValue` says that
nothing of a table is lost on the way, an emitter that was never attached included.
-/

namespace RuleScript

/-- A rule is read back from its value. -/
lemma Rule.ofValue_toValue (r : Rule) : Rule.ofValue r.toValue = .ok r := by
  obtain ⟨name, pattern, emitter⟩ := r
  have hname : Field.ofKey? "name" = some .name := rfl
  have hpattern : Field.ofKey? "pattern" = some .pattern := rfl
  have hemitter : Field.ofKey? "emitter" = some .emitter := rfl
  cases emitter <;>
    simp [toValue, emitterValue, ofValue, readMembers, hname, hpattern, hemitter, Parts.read,
      Parts.has, Parts.none, Parts.put, Parts.complete, textOf, emitterOf, Except.map, bind,
      Except.bind]

namespace RuleTable

/-- Rules are read back from the array of their values. -/
lemma mapM_ofValue_toValue (rules : List Rule) :
    (rules.map Rule.toValue).mapM Rule.ofValue = .ok rules := by
  induction rules with
  | nil => rfl
  | cons r rest ih =>
      rw [List.map_cons, List.mapM_cons, Rule.ofValue_toValue, ih]
      rfl

/-- A table is read back from its value. -/
theorem ofValue_toValue (t : RuleTable) : RuleTable.ofValue t.toValue = .ok t := by
  rw [toValue, ofValue, mapM_ofValue_toValue]
  rfl

end RuleTable

end RuleScript
