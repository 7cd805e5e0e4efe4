import RuleScript.Rule.Basic

/-!
Tables of rules. The order of the rules is the order in which they were added, and a name may occur
more than once; an emitter always goes to the first rule of its name, and `withEmitter?_eq_none_iff`
says that it finds none exactly when no rule has the name.
-/

namespace RuleScript

/-- A table of rules, in the order in which they were added. -/
structure RuleTable where
  rules : List Rule
deriving DecidableEq, Repr

/-- Attaches an emitter to the first rule that has the name. -/
def attachFirst? (name emitter : String) : List Rule → Option (List Rule)
  | [] => none
  | r :: rest =>
    if r.name = name then some (r.withEmitter emitter :: rest)
    else (attachFirst? name emitter rest).map (r :: ·)

namespace RuleTable

/-- The table without rules. -/
def empty : RuleTable := ⟨[]⟩

/-- The number of rules, repeated names included. -/
def size (t : RuleTable) : Nat := t.rules.length

/-- The table with one more rule at its end. -/
def withRule (t : RuleTable) (name pattern : String) : RuleTable :=
  ⟨t.rules ++ [.plain name pattern]⟩

/-- The table with an emitter attached to the first rule of a name, if there is one. -/
def withEmitter? (t : RuleTable) (name emitter : String) : Option RuleTable :=
  (attachFirst? name emitter t.rules).map RuleTable.mk

/-- The forms of all rules, each on a new line. -/
def forms (t : RuleTable) : String := String.join (t.rules.map fun r => "\n" ++ r.form)

/-- The value under which a table is kept. -/
def toValue (t : RuleTable) : Json.Value := .array (t.rules.map Rule.toValue)

/-! ### What the operations change -/

@[simp] theorem size_empty : empty.size = 0 := rfl

@[simp] theorem size_withRule (t : RuleTable) (name pattern : String) :
    (t.withRule name pattern).size = t.size + 1 := by
  simp [size, withRule]

@[simp] theorem forms_empty : empty.forms = "" := rfl

end RuleTable

theorem attachFirst?_eq_none_iff (name emitter : String) (rules : List Rule) :
    attachFirst? name emitter rules = none ↔ ∀ r ∈ rules, r.name ≠ name := by
  induction rules with
  | nil => simp [attachFirst?]
  | cons r rest ih => by_cases h : r.name = name <;> simp [attachFirst?, h, ih]

namespace RuleTable

theorem withEmitter?_eq_none_iff (t : RuleTable) (name emitter : String) :
    t.withEmitter? name emitter = none ↔ ∀ r ∈ t.rules, r.name ≠ name := by
  simp [withEmitter?, attachFirst?_eq_none_iff]

end RuleTable

end RuleScript
