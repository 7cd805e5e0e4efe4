import Mathlib.Tactic.Common
import RuleScript.Proofs.Rule.Stored
import RuleScript.Template.Counter
import RuleScript.Template.Tables

/-!
Actions that look at the value of a key and at nothing else.

* `Action.Reads`: what such an action gives is what it makes of the visible value, and it leaves no
  trace; so what follows it is done to the same scope (`Reads.bind_of_ok`) or is not begun
  (`Reads.bind_of_error`), and what was read can be written anew (`Reads.exists_modify?`);
* `Tables.reads_load`, `Counter.reads_current`: loading a table and looking at the counter are such
  actions.
-/

namespace RuleScript

open RuleScript.Json (Value)

variable {α β : Type} {s u : Scope} {e : TemplateError} {x : α}

/-! ### Reading a key -/

/-- The action looks at the visible value of a key, and gives what is made of it. -/
def Action.Reads (a : Action α) (key : String) (decode : Value → Except TemplateError α) : Prop :=
  ∀ s, a s = ⟨((s.get? key).map decode).getD (.error (.uninitialized key)), s, []⟩

namespace Action.Reads

variable {a : Action α} {key : String} {decode : Value → Except TemplateError α}

lemma result_eq (h : a.Reads key decode) (s : Scope) :
    (a s).result = ((s.get? key).map decode).getD (.error (.uninitialized key)) := by
  rw [h s]

/-- Reading leaves the scope as it is, and logs nothing. -/
lemma eq_of_result (h : a.Reads key decode) {r : Except TemplateError α} (hr : (a s).result = r) :
    a s = ⟨r, s, []⟩ := by
  rw [← hr, h s]

/-- What was to be done with a value that cannot be read is not begun. -/
lemma bind_of_error (h : a.Reads key decode) (he : (a s).result = .error e) (f : α → Action β) :
    (a >>= f) s = ⟨.error e, s, []⟩ := by
  have heq := h.eq_of_result he
  exact Action.bind_of_error heq

/-- What is done with a value that was read is done to the same scope. -/
lemma bind_of_ok (h : a.Reads key decode) (hx : (a s).result = .ok x) (f : α → Action β) :
    (a >>= f) s = f x s := by
  have heq := h.eq_of_result hx
  exact Action.bind_of_ok heq

/-- Where a value was read, a new one can be put in its place. -/
lemma exists_modify? (h : a.Reads key decode) (hx : (a s).result = .ok x) (v : Value) :
    ∃ u, s.modify? key v = some u := by
  cases hmodify : s.modify? key v with
  | some u => exact ⟨u, rfl⟩
  | none =>
      have hnone : s.get? key = none := (Scope.modify?_eq_none_iff s key v).1 hmodify
      rw [h.result_eq, hnone] at hx
      cases hx

/-- Reading fails where the key means nothing, or where nothing can be made of its value. -/
lemma error_cases (h : a.Reads key decode) (he : (a s).result = .error e) :
    e = .uninitialized key ∨ ∃ v, decode v = .error e := by
  rw [h.result_eq] at he
  cases hget : s.get? key with
  | none =>
      rw [hget] at he
      exact .inl (Except.error.inj he).symm
  | some v =>
      rw [hget] at he
      exact .inr ⟨v, he⟩

/-- A value that was put in the place of the visible one is the one that is read. -/
lemma result_of_modify? (h : a.Reads key decode) {v : Value} (hu : s.modify? key v = some u) :
    (a u).result = decode v := by
  have hget : u.get? key = some v := by rw [Scope.get?_of_modify? hu, if_pos rfl]
  rw [h.result_eq, hget]
  rfl

end Action.Reads

/-! ### Tables and counters -/

namespace Tables

/-- The table that a value stands for. -/
def decode (v : Value) : Except TemplateError RuleTable :=
  (RuleTable.ofValue v).mapError fun e => .malformed key (.table e)

lemma reads_load : load.Reads key decode := by
  intro s
  cases h : s.get? key <;> simp [load, bind, Action.andThen, Action.get, h, Action.ofExcept, decode]

lemma malformed_of_decode {v : Value} (h : decode v = .error e) :
    ∃ cause, e = .malformed key cause := by
  rw [decode] at h
  cases hv : RuleTable.ofValue v with
  | error cause =>
      rw [hv] at h
      exact ⟨.table cause, (Except.error.inj h).symm⟩
  | ok t =>
      rw [hv] at h
      cases h

lemma decode_toValue (t : RuleTable) : decode t.toValue = .ok t := by
  rw [decode, RuleTable.ofValue_toValue]
  rfl

/-- A table is loaded from its value. -/
lemma load_of_get? {t : RuleTable} (h : s.get? key = some t.toValue) :
    (load s).result = .ok t := by
  rw [reads_load.result_eq, h]
  exact decode_toValue t

/-- The table that was put in the place of the visible one is the one that is loaded. -/
lemma load_of_modify? {t : RuleTable} (h : s.modify? key t.toValue = some u) :
    (load u).result = .ok t := by
  rw [reads_load.result_of_modify? h, decode_toValue]

/-- Where the key means anything, a table can be put in its place. -/
lemma store_of_get? (h : s.get? key ≠ none) (t : RuleTable) :
    ∃ u, store t s = ⟨.ok (), u, []⟩ ∧ u.get? key = some t.toValue := by
  cases hmodify : s.modify? key t.toValue with
  | none => exact absurd ((Scope.modify?_eq_none_iff s key t.toValue).1 hmodify) h
  | some u =>
      refine ⟨u, ?_, ?_⟩
      · rw [store, Action.modify, hmodify]
      · rw [Scope.get?_of_modify? hmodify, if_pos rfl]

end Tables

namespace Counter

/-- The counter that a value stands for. -/
def decode (v : Value) : Except TemplateError UInt64 :=
  match v.asNatural? with
  | some n => .ok n
  | none => .error (.malformed key (.counter v))

lemma reads_current : current.Reads key decode := by
  intro s
  cases h : s.get? key with
  | none => simp [current, bind, Action.andThen, Action.get, h]
  | some v =>
      cases hv : v.asNatural? <;>
        simp [current, bind, Action.andThen, Action.get, h, hv, Action.fail, pure, Action.done,
          decode]

lemma malformed_of_decode {v : Value} (h : decode v = .error e) :
    ∃ cause, e = .malformed key cause := by
  rw [decode] at h
  cases hv : v.asNatural? with
  | none =>
      rw [hv] at h
      exact ⟨.counter v, (Except.error.inj h).symm⟩
  | some n =>
      rw [hv] at h
      cases h

lemma decode_natural (n : UInt64) : decode (.natural n) = .ok n := rfl

/-- The counter is the number that the key means. -/
lemma current_of_get? {n : UInt64} (h : s.get? key = some (.natural n)) :
    (current s).result = .ok n := by
  rw [reads_current.result_eq, h]
  exact decode_natural n

end Counter

end RuleScript
