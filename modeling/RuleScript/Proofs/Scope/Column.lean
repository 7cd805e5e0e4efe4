import RuleScript.Proofs.Scope.Binding

/-!
The bindings of one key: `column s key` is what the frames of a scope bind the key to, frame by
frame, and every operation on a scope is one on its columns.

* `column_push`, `column_of_pop?`, `column_add`, `column_of_modify?`: entering, leaving and the two
  ways to write;
* `get?_eq_findSome?`: a key means the first value of its column;
* `SameOutside.column_eq`: a write outside a column leaves it alone, and so does each way to write
  under another key (`column_add_of_ne`, `column_of_modify?_of_ne`).
-/

namespace RuleScript

open RuleScript.Json (Value)

/-- A list of optional values with the first one that is there changed. -/
def setFirst {α : Type} (x : α) : List (Option α) → List (Option α)
  | [] => []
  | none :: rest => none :: setFirst x rest
  | some _ :: rest => some x :: rest

namespace Scope

variable {s t : Scope} {key : String} {value : Value}

/-- What the frames bind a key to, the innermost frame first. -/
def column (s : Scope) (key : String) : List (Option Value) := s.frames.map (Entries.get? key)

@[simp] lemma column_root (key : String) : root.column key = [none] := rfl

@[simp] lemma column_push (s : Scope) (key : String) : s.push.column key = none :: s.column key :=
  rfl

lemma column_of_pop? (h : s.pop? = some t) (key : String) :
    t.column key = (s.column key).tail := by
  obtain ⟨top, below⟩ := s
  cases below with
  | nil => simp [pop?] at h
  | cons frame outer =>
      obtain rfl := Option.some.inj h
      rfl

/-- Adding puts the value in the first place of the column. -/
lemma column_add (s : Scope) (key : String) (value : Value) :
    (s.add key value).column key = some value :: (s.column key).tail := by
  simp [column, frames, add]

/-- Modifying changes the first value of the column. -/
lemma column_of_modify? (h : s.modify? key value = some t) :
    t.column key = setFirst value (s.column key) := by
  have hlist : ∀ {before after : List Bindings}, overwrite? key value before = some after →
      after.map (Entries.get? key) = setFirst value (before.map (Entries.get? key)) := by
    intro before
    induction before with
    | nil => simp [overwrite?]
    | cons frame outer ih =>
        intro after hafter
        rw [overwrite?] at hafter
        cases hframe : Entries.get? key frame with
        | none =>
            rw [hframe, if_neg (by simp)] at hafter
            obtain ⟨changed, hchanged, rfl⟩ := Option.map_eq_some_iff.1 hafter
            rw [List.map_cons, List.map_cons, hframe, setFirst, ih hchanged]
        | some v =>
            rw [hframe, if_pos (by simp)] at hafter
            obtain rfl := Option.some.inj hafter
            rw [List.map_cons, List.map_cons, hframe, setFirst, Entries.get?_set_self]
  exact hlist (modify?_eq_some_iff.1 h)

/-- A key means the first value of its column. -/
lemma get?_eq_findSome? (s : Scope) (key : String) : s.get? key = (s.column key).findSome? id := by
  have hlist : ∀ frames : List Bindings,
      visible? key frames = (frames.map (Entries.get? key)).findSome? id := by
    intro frames
    induction frames with
    | nil => rfl
    | cons frame outer ih =>
        rw [visible?, List.map_cons, List.findSome?_cons, ih]
        cases Entries.get? key frame <;> rfl
  exact hlist s.frames

/-- Every binding of the key stands in the column. -/
lemma getElem?_column (s : Scope) (key : String) (n : ℕ) :
    (s.column key)[n]? = if n < s.depth then some (s.binding? n key) else none := by
  by_cases hn : n < s.frames.length
  · simp [column, binding?, depth, hn]
  · simp [column, depth, hn]

/-- Columns that are the same hold the same bindings. -/
lemma binding?_eq_of_column_eq (h : t.column key = s.column key) (n : ℕ) :
    t.binding? n key = s.binding? n key := by
  have hjoin : ∀ u : Scope, u.binding? n key = (u.column key)[n]?.join := by
    intro u
    rw [column, binding?, List.getElem?_map]
    cases u.frames[n]? <;> rfl
  rw [hjoin, hjoin, h]

/-- What is written outside a column leaves the column as it was. -/
lemma SameOutside.column_eq {place : Option (ℕ × String)} (h : SameOutside place s t)
    (hkey : ∀ n, place ≠ some (n, key)) : t.column key = s.column key := by
  apply List.ext_getElem?
  intro n
  rw [getElem?_column, getElem?_column, h.depth, h.binding n key (hkey n)]

lemma column_add_of_ne {other : String} (h : other ≠ key) (s : Scope) (value : Value) :
    (s.add key value).column other = s.column other := by
  refine (sameOutside_add s key value).column_eq fun n hn => ?_
  cases hn
  exact h rfl

lemma column_of_modify?_of_ne {other : String} (h : other ≠ key)
    (ht : s.modify? key value = some t) : t.column other = s.column other := by
  refine (sameOutside_of_modify? ht).column_eq fun n hn => ?_
  obtain ⟨m, -, hm⟩ := Option.map_eq_some_iff.1 hn
  cases hm
  exact h rfl

end Scope

end RuleScript
