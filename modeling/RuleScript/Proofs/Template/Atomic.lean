import RuleScript.Proofs.Scope.Binding
import RuleScript.Proofs.Template.Effect

/-!
Calls are atomic: a call that fails leaves the scope as it was, and a call that succeeds writes at
most one binding, the one in its function's place (`TemplateFunction.place?`).

* `invoke_atomic`: both, together with what loading a table gives behind a rule or an emitter that
  was added.
-/

namespace RuleScript

variable {s : Scope}

namespace TemplateFunction

/-- The binding that a function may write in a scope: the frame, counted outwards from the innermost
one, and the key. -/
def place? (s : Scope) : TemplateFunction → Option (ℕ × String)
  | createEmptyTables => some (0, Tables.key)
  | resetVariables => some (0, Counter.key)
  | addRule | addEmitter => (s.nearest? Tables.key).map (·, Tables.key)
  | genVar => (s.nearest? Counter.key).map (·, Counter.key)
  | constructPeg => none

end TemplateFunction

namespace Call

variable {c : Call} {o : Outcome String}

/-- A call that fails leaves the scope as it was. -/
lemma Effect.scope_of_error {e : TemplateError} (h : Effect s c o) (he : o.result = .error e) :
    o.scope = s := by
  cases h <;> first | rfl | cases he

/-- A call writes in the place of its function and nowhere else. -/
lemma Effect.sameOutside (h : Effect s c o) : s.SameOutside (c.function.place? s) o.scope := by
  cases h with
  | tableCreated => exact Scope.sameOutside_add s _ _
  | counterReset => exact Scope.sameOutside_add s _ _
  | ruleAdded load store => exact Scope.sameOutside_of_modify? store
  | emitterAttached load attach store => exact Scope.sameOutside_of_modify? store
  | nameTaken current lt store => exact Scope.sameOutside_of_modify? store
  | formsPrinted load => exact .refl _ s
  | noTable reads load => exact .refl _ s
  | noRule load attach => exact .refl _ s
  | noCounter current => exact .refl _ s
  | exhausted current ge => exact .refl _ s

/-- Behind a rule that was added the table is the one from before with the rule at its end. -/
lemma Effect.load_of_addRule {name pattern text : String} (h : Effect s (.addRule name pattern) o)
    (ho : o.result = .ok text) : ∃ t, (Tables.load s).result = .ok t ∧
      (Tables.load o.scope).result = .ok (t.withRule name pattern) := by
  cases h with
  | ruleAdded load store => exact ⟨_, load, Tables.load_of_modify? store⟩
  | noTable reads load => cases ho

/-- Behind an emitter that was added the table is the one from before with the emitter attached. -/
lemma Effect.load_of_addEmitter {name emitter text : String}
    (h : Effect s (.addEmitter name emitter) o) (ho : o.result = .ok text) :
    ∃ t u, (Tables.load s).result = .ok t ∧ t.withEmitter? name emitter = some u ∧
      (Tables.load o.scope).result = .ok u := by
  cases h with
  | emitterAttached load attach store =>
      exact ⟨_, _, load, attach, Tables.load_of_modify? store⟩
  | noTable reads load => cases ho
  | noRule load attach => cases ho

end Call

namespace TemplateFunction

/-- A call keeps the number of frames. -/
lemma depth_invoke (f : TemplateFunction) (args : List String) (s : Scope) :
    (f.invoke args s).scope.depth = s.depth := by
  rcases invoke_cases f args s with hinv | ⟨c, o, -, heff, hinv⟩
  · rw [hinv]
  · rw [hinv]
    exact heff.sameOutside.depth

/-- A call that fails, be it for its arguments or for what the scope holds, leaves the scope as it
was. -/
lemma scope_of_invoke_error {f : TemplateFunction} {args : List String} {e : TemplateError}
    (h : (f.invoke args s).result = .error e) : (f.invoke args s).scope = s := by
  rcases invoke_cases f args s with hinv | ⟨c, o, -, heff, hinv⟩
  · rw [hinv]
  · rw [hinv] at h ⊢
    exact heff.scope_of_error h

/-- **Calls are atomic.** A call that fails leaves the scope exactly as it was. A call that succeeds
leaves every binding alone but the one in its function's place; and behind a rule or an emitter that
was added, the table that is loaded is the one that was loaded before with just that done to it,
however the value was written that it was loaded from. -/
theorem invoke_atomic (s : Scope) :
    (∀ (f : TemplateFunction) (args : List String) (e : TemplateError),
      (f.invoke args s).result = .error e → (f.invoke args s).scope = s) ∧
    (∀ (f : TemplateFunction) (args : List String) (text : String),
      (f.invoke args s).result = .ok text →
        s.SameOutside (f.place? s) (f.invoke args s).scope) ∧
    (∀ name pattern text : String, (addRule.invoke [name, pattern] s).result = .ok text →
      ∃ t, (Tables.load s).result = .ok t ∧
        (Tables.load (addRule.invoke [name, pattern] s).scope).result =
          .ok (t.withRule name pattern)) ∧
    (∀ name emitter text : String, (addEmitter.invoke [name, emitter] s).result = .ok text →
      ∃ t u, (Tables.load s).result = .ok t ∧ t.withEmitter? name emitter = some u ∧
        (Tables.load (addEmitter.invoke [name, emitter] s).scope).result = .ok u) := by
  refine ⟨?_, ?_, ?_, ?_⟩
  · intro f args e he
    rcases invoke_cases f args s with hinv | ⟨c, o, -, heff, hinv⟩
    · rw [hinv]
    · rw [hinv] at he ⊢
      exact heff.scope_of_error he
  · intro f args text hok
    rcases invoke_cases f args s with hinv | ⟨c, o, hargs, heff, hinv⟩
    · rw [hinv]
      exact .refl _ s
    · rw [hinv, ← Call.function_of_ofArgs? hargs]
      exact heff.sameOutside
  · intro name pattern text hok
    have heff := (Call.addRule name pattern).effect s
    rw [invoke_of_ofArgs? (c := .addRule name pattern) rfl] at hok ⊢
    exact heff.load_of_addRule hok
  · intro name emitter text hok
    have heff := (Call.addEmitter name emitter).effect s
    rw [invoke_of_ofArgs? (c := .addEmitter name emitter) rfl] at hok ⊢
    exact heff.load_of_addEmitter hok

end TemplateFunction

end RuleScript
