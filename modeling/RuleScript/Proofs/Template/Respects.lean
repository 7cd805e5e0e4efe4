import RuleScript.Proofs.Template.History

/-!
Two runs of one action, from scopes that are related in some way. An action respects a relation when
its two runs give the same result and leave related scopes; what is logged may differ.

* `Respects.bind` and its neighbours: the relation is respected by an action as soon as it is by the
  parts that the action is made of;
* `Scope.Alike`: what a relation must be for a key, so that no action can tell related scopes apart
  by it;
* `TemplateFunction.cell`, `TemplateFunction.respects_invoke`: a call is about the table or about
  the counter, and depends on nothing else.
-/

namespace RuleScript

open RuleScript.Json (Value)

variable {α β : Type} {R : Scope → Scope → Prop} {s t : Scope} {key : String}

/-- The outcomes have the same result and leave related scopes. -/
structure Outcome.Agree (R : Scope → Scope → Prop) (o p : Outcome α) : Prop where
  result : p.result = o.result
  scope : R o.scope p.scope

/-- Run on related scopes the action comes to the same and leaves related scopes. -/
def Action.Respects (R : Scope → Scope → Prop) (a : Action α) : Prop :=
  ∀ ⦃s t : Scope⦄, R s t → (a s).Agree R (a t)

/-- No one who reads and writes a key can tell related scopes apart: the key means the same in both,
and its visible binding can be given a new value in both or in neither, which leaves them
related. -/
structure Scope.Alike (R : Scope → Scope → Prop) (key : String) : Prop where
  get? : ∀ {s t : Scope}, R s t → t.get? key = s.get? key
  modify? : ∀ {s t : Scope} (v : Value), R s t →
    Option.Rel R (s.modify? key v) (t.modify? key v)

namespace Action

/-! ### Actions put together -/

lemma respects_pure (x : α) : Respects R (pure x : Action α) := fun _ _ h => ⟨rfl, h⟩

lemma respects_fail (e : TemplateError) : Respects R (fail e : Action α) := fun _ _ h => ⟨rfl, h⟩

lemma respects_ofExcept (r : Except TemplateError α) : Respects R (ofExcept r) :=
  fun _ _ h => ⟨rfl, h⟩

lemma respects_log (e : Event) : Respects R (log e) := fun _ _ h => ⟨rfl, h⟩

/-- What is done to related scopes, one thing after another, comes to the same. -/
lemma Respects.bind {first : Action α} {second : α → Action β} (hfirst : first.Respects R)
    (hsecond : ∀ x, (second x).Respects R) : (first >>= second).Respects R := by
  intro s t h
  obtain ⟨hresult, hscope⟩ := hfirst h
  rcases hs : first s with ⟨e | x, s', logS⟩ <;> rcases ht : first t with ⟨e' | x', t', logT⟩ <;>
    rw [hs, ht] at hresult hscope
  · obtain rfl := Except.error.inj hresult
    rw [bind_of_error hs, bind_of_error ht]
    exact ⟨rfl, hscope⟩
  · cases hresult
  · cases hresult
  · obtain rfl := Except.ok.inj hresult
    rw [bind_of_ok hs, bind_of_ok ht]
    obtain ⟨hresult', hscope'⟩ := hsecond x' hscope
    exact ⟨hresult', hscope'⟩

/-- A result may be changed in both runs alike. -/
lemma Respects.map {a : Action α} (ha : a.Respects R) (f : α → β) : (f <$> a).Respects R := by
  rw [← bind_pure]
  exact ha.bind fun x => respects_pure (f x)

/-! ### Reading and writing -/

lemma respects_get (h : Scope.Alike R key) : Respects R (get key) := by
  intro s t hst
  have hget := h.get? hst
  cases hs : s.get? key with
  | none =>
      have ht : t.get? key = none := hget.trans hs
      simp only [get, hs, ht]
      exact ⟨rfl, hst⟩
  | some v =>
      have ht : t.get? key = some v := hget.trans hs
      simp only [get, hs, ht]
      exact ⟨rfl, hst⟩

lemma respects_modify (h : Scope.Alike R key) (v : Value) : Respects R (modify key v) := by
  intro s t hst
  have hrel := h.modify? v hst
  unfold modify
  generalize s.modify? key v = s', t.modify? key v = t' at hrel
  cases hrel with
  | none => exact ⟨rfl, hst⟩
  | some hst' => exact ⟨rfl, hst'⟩

lemma respects_add (h : ∀ s t v, R s t → R (s.add key v) (t.add key v)) (v : Value) :
    Respects R (add key v) :=
  fun _ _ hst => ⟨rfl, h _ _ v hst⟩

end Action

/-! ### Tables and counters -/

open RuleScript.Action

namespace Tables

variable (h : Scope.Alike R Tables.key)
include h

lemma respects_load : Respects R load :=
  (respects_get h).bind fun _ => respects_ofExcept _

lemma respects_addRule (name pattern : String) :
    Respects R (addRule name pattern) :=
  (respects_load h).bind fun _ => (respects_log _).bind fun _ => respects_modify h _

lemma respects_addEmitter (name emitter : String) :
    Respects R (addEmitter name emitter) := by
  refine (respects_load h).bind fun t => ?_
  cases t.withEmitter? name emitter with
  | none => exact respects_fail _
  | some u => exact (respects_log _).bind fun _ => respects_modify h _

lemma respects_forms : Respects R forms :=
  (respects_load h).bind fun _ => respects_pure _

end Tables

namespace Counter

variable (h : Scope.Alike R Counter.key)
include h

lemma respects_current : Respects R current := by
  refine (respects_get h).bind fun v => ?_
  cases v.asNatural? with
  | none => exact respects_fail _
  | some n => exact respects_pure n

lemma respects_next : Respects R next := by
  refine (respects_current h).bind fun n => ?_
  split
  · exact (respects_modify h _).bind fun _ => respects_pure _
  · exact respects_fail _

end Counter

/-! ### Calls -/

namespace TemplateFunction

/-- What a call of the function is about. -/
def cell : TemplateFunction → Cell
  | createEmptyTables | addRule | addEmitter | constructPeg => .table
  | resetVariables | genVar => .counter

end TemplateFunction

/-- Related scopes are told apart by no call if they are not by the key that the call is about;
and, if the call is a set-up, not by binding that key anew either. -/
lemma Call.respects_run (c : Call) (h : Scope.Alike R c.function.cell.key)
    (hadd : c.function = c.function.cell.setUp → ∀ s t v, R s t →
      R (s.add c.function.cell.key v) (t.add c.function.cell.key v)) : Respects R c.run := by
  cases c with
  | createEmptyTables => exact (respects_add (hadd rfl) _).bind fun _ => respects_pure _
  | addRule name pattern =>
      exact (Tables.respects_addRule h name pattern).bind fun _ => respects_pure _
  | addEmitter name emitter =>
      exact (Tables.respects_addEmitter h name emitter).bind fun _ => respects_pure _
  | constructPeg => exact Tables.respects_forms h
  | resetVariables => exact (respects_add (hadd rfl) _).bind fun _ => respects_pure _
  | genVar => exact Counter.respects_next h

namespace TemplateFunction

/-- The same of a call of a function, be its arguments fit or not. -/
lemma respects_invoke (f : TemplateFunction) (args : List String)
    (h : Scope.Alike R f.cell.key)
    (hadd : f = f.cell.setUp → ∀ s t v, R s t → R (s.add f.cell.key v) (t.add f.cell.key v)) :
    Respects R (f.invoke args) := by
  unfold invoke
  cases hargs : Call.ofArgs? f args with
  | none => exact respects_fail _
  | some c =>
      obtain rfl := Call.function_of_ofArgs? hargs
      exact (respects_log _).bind fun _ => c.respects_run h hadd

end TemplateFunction

end RuleScript
