import RuleScript.Proofs.Template.Reading
import RuleScript.Template.Invoke

/-!
What one call does. `Call.Effect` lists every way a call can end, with what the scope must hold for
it, and `Call.effect` says that there is no other one; `TemplateFunction.invoke_of_ofArgs?` and
`TemplateFunction.invoke_of_not_fit` put the check of the arguments in front.
-/

namespace RuleScript

variable {s : Scope} {e : TemplateError}

/-! ### The ways a call can end -/

/-- Whether a call is about the table that is visible. -/
def Call.readsTable : Call → Bool
  | .addRule .. | .addEmitter .. | .constructPeg => true
  | .createEmptyTables | .resetVariables | .genVar => false

/-- The ways a call can end on a scope. -/
inductive Call.Effect (s : Scope) : Call → Outcome String → Prop
  | tableCreated :
    Effect s .createEmptyTables ⟨.ok "", s.add Tables.key RuleTable.empty.toValue, []⟩
  | counterReset : Effect s .resetVariables ⟨.ok "", s.add Counter.key (.natural 0), []⟩
  | ruleAdded {name pattern : String} {t : RuleTable} {u : Scope}
      (load : (Tables.load s).result = .ok t)
      (store : s.modify? Tables.key (t.withRule name pattern).toValue = some u) :
    Effect s (.addRule name pattern) ⟨.ok "", u, [.addedRule name (t.size + 1)]⟩
  | emitterAttached {name emitter : String} {t t' : RuleTable} {u : Scope}
      (load : (Tables.load s).result = .ok t) (attach : t.withEmitter? name emitter = some t')
      (store : s.modify? Tables.key t'.toValue = some u) :
    Effect s (.addEmitter name emitter) ⟨.ok "", u, [.attachedEmitter name]⟩
  | formsPrinted {t : RuleTable} (load : (Tables.load s).result = .ok t) :
    Effect s .constructPeg ⟨.ok t.forms, s, []⟩
  | nameTaken {n : UInt64} {u : Scope} (current : (Counter.current s).result = .ok n)
      (lt : n.toNat + 1 < UInt64.size) (store : s.modify? Counter.key (.natural (n + 1)) = some u) :
    Effect s .genVar ⟨.ok (Counter.name n), u, []⟩
  | noTable {c : Call} {e : TemplateError} (reads : c.readsTable)
      (load : (Tables.load s).result = .error e) : Effect s c ⟨.error e, s, []⟩
  | noRule {name emitter : String} {t : RuleTable} (load : (Tables.load s).result = .ok t)
      (attach : t.withEmitter? name emitter = none) :
    Effect s (.addEmitter name emitter) ⟨.error (.ruleNotFound name), s, []⟩
  | noCounter {e : TemplateError} (current : (Counter.current s).result = .error e) :
    Effect s .genVar ⟨.error e, s, []⟩
  | exhausted {n : UInt64} (current : (Counter.current s).result = .ok n)
      (ge : UInt64.size ≤ n.toNat + 1) :
    Effect s .genVar ⟨.error (.malformed Counter.key .exhausted), s, []⟩

namespace Call

/-- Calls that read a table fail as the reading fails. -/
lemma run_of_load_error {c : Call} (hc : c.readsTable) (h : (Tables.load s).result = .error e) :
    c.run s = ⟨.error e, s, []⟩ := by
  cases c with
  | addRule name pattern =>
      exact Action.bind_of_error (Tables.reads_load.bind_of_error h _)
  | addEmitter name emitter =>
      exact Action.bind_of_error (Tables.reads_load.bind_of_error h _)
  | constructPeg => exact Tables.reads_load.bind_of_error h _
  | createEmptyTables => cases hc
  | resetVariables => cases hc
  | genVar => cases hc

/-- Adding a rule ends in one of the ways listed. -/
lemma effect_addRule (name pattern : String) (s : Scope) :
    Effect s (.addRule name pattern) ((addRule name pattern).run s) := by
  cases h : (Tables.load s).result with
  | error e =>
      rw [run_of_load_error rfl h]
      exact .noTable rfl h
  | ok t =>
      obtain ⟨u, hu⟩ := Tables.reads_load.exists_modify? h (t.withRule name pattern).toValue
      have hadd : Tables.addRule name pattern s = ⟨.ok (), u, [.addedRule name (t.size + 1)]⟩ := by
        refine (Tables.reads_load.bind_of_ok h _).trans ?_
        simp [bind, Action.andThen, Action.log, Tables.store, Action.modify, hu]
      have hrun : (addRule name pattern).run s =
          ⟨.ok "", u, [.addedRule name (t.size + 1)]⟩ := Action.bind_of_ok hadd
      rw [hrun]
      exact .ruleAdded h hu

/-- Attaching an emitter ends in one of the ways listed. -/
lemma effect_addEmitter (name emitter : String) (s : Scope) :
    Effect s (.addEmitter name emitter) ((addEmitter name emitter).run s) := by
  cases h : (Tables.load s).result with
  | error e =>
      rw [run_of_load_error rfl h]
      exact .noTable rfl h
  | ok t =>
      cases hattach : t.withEmitter? name emitter with
      | none =>
          have hadd : Tables.addEmitter name emitter s = ⟨.error (.ruleNotFound name), s, []⟩ := by
            refine (Tables.reads_load.bind_of_ok h _).trans ?_
            simp [hattach, Action.fail]
          have hrun : (addEmitter name emitter).run s = ⟨.error (.ruleNotFound name), s, []⟩ :=
            Action.bind_of_error hadd
          rw [hrun]
          exact .noRule h hattach
      | some t' =>
          obtain ⟨u, hu⟩ := Tables.reads_load.exists_modify? h t'.toValue
          have hadd : Tables.addEmitter name emitter s =
              ⟨.ok (), u, [.attachedEmitter name]⟩ := by
            refine (Tables.reads_load.bind_of_ok h _).trans ?_
            simp [hattach, bind, Action.andThen, Action.log, Tables.store, Action.modify, hu]
          have hrun : (addEmitter name emitter).run s =
              ⟨.ok "", u, [.attachedEmitter name]⟩ := Action.bind_of_ok hadd
          rw [hrun]
          exact .emitterAttached h hattach hu

/-- Printing the forms ends in one of the ways listed. -/
lemma effect_constructPeg (s : Scope) : Effect s .constructPeg (constructPeg.run s) := by
  cases h : (Tables.load s).result with
  | error e =>
      rw [run_of_load_error rfl h]
      exact .noTable rfl h
  | ok t =>
      have hrun : constructPeg.run s = ⟨.ok t.forms, s, []⟩ := Tables.reads_load.bind_of_ok h _
      rw [hrun]
      exact .formsPrinted h

/-- Without a number no name is taken. -/
lemma run_genVar_of_error (h : (Counter.current s).result = .error e) :
    genVar.run s = ⟨.error e, s, []⟩ :=
  Counter.reads_current.bind_of_error h _

/-- A number with a successor is taken, and the successor is put in its place. -/
lemma exists_run_genVar {n : UInt64} (h : (Counter.current s).result = .ok n)
    (hlt : n.toNat + 1 < UInt64.size) :
    ∃ u, s.modify? Counter.key (.natural (n + 1)) = some u ∧
      genVar.run s = ⟨.ok (Counter.name n), u, []⟩ := by
  obtain ⟨u, hu⟩ := Counter.reads_current.exists_modify? h (.natural (n + 1))
  have hmodify : Action.modify Counter.key (.natural (n + 1)) s = ⟨.ok (), u, []⟩ := by
    simp [Action.modify, hu]
  refine ⟨u, hu, (Counter.reads_current.bind_of_ok h _).trans ?_⟩
  rw [if_pos hlt]
  exact Action.bind_of_ok hmodify

/-- The last number is not taken. -/
lemma run_genVar_of_exhausted {n : UInt64} (h : (Counter.current s).result = .ok n)
    (hge : UInt64.size ≤ n.toNat + 1) :
    genVar.run s = ⟨.error (.malformed Counter.key .exhausted), s, []⟩ := by
  refine (Counter.reads_current.bind_of_ok h _).trans ?_
  rw [if_neg (Nat.not_lt.mpr hge)]
  rfl

/-- Taking a name ends in one of the ways listed. -/
lemma effect_genVar (s : Scope) : Effect s .genVar (genVar.run s) := by
  cases h : (Counter.current s).result with
  | error e =>
      rw [run_genVar_of_error h]
      exact .noCounter h
  | ok n =>
      rcases Nat.lt_or_ge (n.toNat + 1) UInt64.size with hlt | hge
      · obtain ⟨u, hu, hrun⟩ := exists_run_genVar h hlt
        rw [hrun]
        exact .nameTaken h hlt hu
      · rw [run_genVar_of_exhausted h hge]
        exact .exhausted h hge

/-- A call ends in one of the ways listed. -/
theorem effect (c : Call) (s : Scope) : Effect s c (c.run s) := by
  cases c with
  | createEmptyTables => exact .tableCreated
  | addRule name pattern => exact effect_addRule name pattern s
  | addEmitter name emitter => exact effect_addEmitter name emitter s
  | constructPeg => exact effect_constructPeg s
  | resetVariables => exact .counterReset
  | genVar => exact effect_genVar s

/-- The function that a call is a call of. -/
def function : Call → TemplateFunction
  | .createEmptyTables => .createEmptyTables
  | .addRule .. => .addRule
  | .addEmitter .. => .addEmitter
  | .constructPeg => .constructPeg
  | .resetVariables => .resetVariables
  | .genVar => .genVar

/-- Arguments that fit make a call of the function that they were given to. -/
lemma function_of_ofArgs? {f : TemplateFunction} {args : List String} {c : Call}
    (h : ofArgs? f args = some c) : c.function = f := by
  unfold ofArgs? at h
  split at h <;> first | (obtain rfl := Option.some.inj h; rfl) | cases h

/-- The arguments of a call. -/
def args : Call → List String
  | .addRule name pattern => [name, pattern]
  | .addEmitter name emitter => [name, emitter]
  | .createEmptyTables | .constructPeg | .resetVariables | .genVar => []

/-- Arguments that fit are those of the call that they make. -/
lemma args_of_ofArgs? {f : TemplateFunction} {args : List String} {c : Call}
    (h : ofArgs? f args = some c) : c.args = args := by
  unfold ofArgs? at h
  split at h <;> first | (obtain rfl := Option.some.inj h; rfl) | cases h

end Call

/-! ### Calling a function -/

namespace TemplateFunction

variable {f : TemplateFunction} {args : List String} {c : Call}

/-- A call with arguments that fit is logged, and then it is run. -/
lemma invoke_of_ofArgs? (h : Call.ofArgs? f args = some c) (s : Scope) :
    f.invoke args s =
      ⟨(c.run s).result, (c.run s).scope, .calling f args :: (c.run s).log⟩ := by
  rw [invoke, h]
  rfl

/-- A call with arguments that do not fit does nothing. -/
lemma invoke_of_not_fit (h : Call.ofArgs? f args = none) (s : Scope) :
    f.invoke args s = ⟨.error (.arityMismatch f args.length), s, []⟩ := by
  rw [invoke, h]
  rfl

/-- A call either does nothing, as its arguments do not fit, or ends in one of the ways listed. -/
lemma invoke_cases (f : TemplateFunction) (args : List String) (s : Scope) :
    f.invoke args s = ⟨.error (.arityMismatch f args.length), s, []⟩ ∨
      ∃ (c : Call) (o : Outcome String), Call.ofArgs? f args = some c ∧ Call.Effect s c o ∧
        f.invoke args s = ⟨o.result, o.scope, .calling f args :: o.log⟩ := by
  cases h : Call.ofArgs? f args with
  | none => exact .inl (invoke_of_not_fit h s)
  | some c => exact .inr ⟨c, c.run s, rfl, c.effect s, invoke_of_ofArgs? h s⟩

end TemplateFunction

end RuleScript
