import RuleScript.Proofs.Rule.Shapes
import RuleScript.Proofs.Scope.Binding
import RuleScript.Proofs.Template.Reading

/-!
Loading and storing tables. What is loaded depends on nothing but what the visible value stands for,
and what is stored has a single normal form: each rule as an object of its name, its pattern and its
emitter, in this order.

* `Tables.load_eq_ok_iff`, `Tables.exists_malformed`: which values are loaded as which tables, and how
  loading any other one fails;
* `Tables.toValue_eq`: the normal form;
* `Tables.load_normalizes`: a table that was loaded can be stored in the place that it came from, is
  loaded from there again, and storing it once more changes nothing.
-/

namespace RuleScript.Tables

open RuleScript.Json (Value)

variable {s u : Scope} {v : Value} {t : RuleTable}

/-! ### Loading -/

/-- A table is loaded exactly from an array of values that stand for its rules. -/
lemma load_eq_ok_iff (h : s.get? key = some v) :
    (load s).result = .ok t ↔
      ∃ items, v = .array items ∧ List.Forall₂ Rule.Stands items t.rules := by
  have hdecode : (load s).result = decode v := by
    rw [reads_load.result_eq, h]
    rfl
  rw [hdecode, decode, mapError_eq_ok_iff, RuleTable.ofValue_eq_ok_iff]

/-- Where there is a value but no table is loaded, the value is malformed. -/
lemma exists_malformed (h : s.get? key = some v) (hnone : ∀ t, (load s).result ≠ .ok t) :
    ∃ reason, (load s).result = .error (.malformed key reason) := by
  have hdecode : (load s).result = decode v := by
    rw [reads_load.result_eq, h]
    rfl
  cases hload : (load s).result with
  | ok t => exact absurd hload (hnone t)
  | error e =>
      obtain ⟨reason, rfl⟩ := malformed_of_decode (hdecode.symm.trans hload)
      exact ⟨reason, rfl⟩

/-! ### Storing -/

/-- The normal form of a table. -/
lemma toValue_eq (t : RuleTable) : t.toValue = .array (t.rules.map fun r =>
    .object [("name", .string r.name), ("pattern", .string r.pattern),
      ("emitter", r.emitter.elim .null .string)]) := by
  have hrule : ∀ r : Rule, r.toValue = .object [("name", .string r.name),
      ("pattern", .string r.pattern), ("emitter", r.emitter.elim .null .string)] := by
    intro r
    rw [Rule.toValue]
    cases r.emitter <;> rfl
  rw [RuleTable.toValue, List.map_congr_left fun r _ => hrule r]

/-- A table that is stored replaces the visible value, and nothing else. -/
lemma store_eq_of_modify? (h : s.modify? key t.toValue = some u) :
    store t s = ⟨.ok (), u, []⟩ := by
  rw [store, Action.modify, h]

/-- **Loading and storing normalize.** Of the values that are visible under the key of the table
exactly the arrays of what stands for rules are loaded, as the table of these rules, and any other
one is malformed. A table that was loaded is stored in the place of the value that it was loaded
from, in the normal form, and every other binding stays; it is loaded from there as the same table,
and storing it a second time leaves the scope as it is. -/
theorem load_normalizes (s : Scope) (v : Value) (h : s.get? "rules" = some v) :
    (∀ t, (load s).result = .ok t ↔
      ∃ items, v = .array items ∧ List.Forall₂ Rule.Stands items t.rules) ∧
    ((∀ t, (load s).result ≠ .ok t) →
      ∃ reason, (load s).result = .error (.malformed "rules" reason)) ∧
    (∀ t, (load s).result = .ok t → ∃ u place,
      store t s = ⟨.ok (), u, []⟩ ∧ s.nearest? "rules" = some place ∧ u.depth = s.depth ∧
      (∀ n other, u.binding? n other =
        if n = place ∧ other = "rules" then
          some (.array (t.rules.map fun r => .object [("name", .string r.name),
            ("pattern", .string r.pattern), ("emitter", r.emitter.elim .null .string)]))
        else s.binding? n other) ∧
      load u = ⟨.ok t, u, []⟩ ∧ store t u = ⟨.ok (), u, []⟩) := by
  refine ⟨fun t => load_eq_ok_iff h, exists_malformed h, fun t hload => ?_⟩
  obtain ⟨u, hu⟩ := reads_load.exists_modify? hload t.toValue
  obtain ⟨place, hplace, hbinding⟩ := Scope.binding?_of_modify? hu
  have hvisible : u.get? key = some t.toValue := by rw [Scope.get?_of_modify? hu, if_pos rfl]
  refine ⟨u, place, store_eq_of_modify? hu, hplace, Scope.depth_of_modify? hu, ?_,
    reads_load.eq_of_result (load_of_modify? hu),
    store_eq_of_modify? (Scope.modify?_of_get? hvisible)⟩
  rw [← toValue_eq]
  exact hbinding

/-- A table that a host wrote in its own way is loaded: an array for one rule, and for another an
object with its members in another order, with one more and without an emitter. -/
theorem load_normalizes_foreign :
    (load (Scope.root.add "rules" (.array [.array [.string "A", .string "p", .string "e"],
      .object [("pattern", .string "q"), ("line", .natural 7), ("name", .string "B")]]))).result =
        .ok ⟨[⟨"A", "p", some "e"⟩, ⟨"B", "q", none⟩]⟩ :=
  ((load_normalizes (Scope.root.add "rules" (.array [.array [.string "A", .string "p", .string "e"],
    .object [("pattern", .string "q"), ("line", .natural 7), ("name", .string "B")]])) _ rfl).1
      ⟨[⟨"A", "p", some "e"⟩, ⟨"B", "q", none⟩]⟩).2
    ⟨_, rfl, .cons (.array (.text "e")) (.cons (.object rfl rfl .absent) .nil)⟩

end RuleScript.Tables
