import RuleScript.Proofs.Result
import RuleScript.Proofs.Script.RoundTrip

/-!
Which values are scripts: just those that scripts are written as.

* `Step.ofValue_cases`: a value that stands for a step is written as a step is, up to the steps of
  a nested scope;
* `Misshapen`: the values that are no step whatever stands inside them, and `StandsIn`: the values
  that stand in the place of a step, at any depth;
* `Script.indValues`: the induction principle of values read as steps;
* `ofValue_exact`: reading undoes writing and nothing else, and it fails exactly where a value in
  the place of a step is misshapen, at whatever depth.
-/

namespace RuleScript

open RuleScript.Json (Value)

/-! ### Values that stand for steps -/

/-- Arguments are read from strings only, and none of them is lost. -/
lemma Step.eq_map_string_of_argsOfValues {name : String} {values : List Value}
    {args : List String} (h : Step.argsOfValues name values = .ok args) :
    values = args.map .string := by
  induction values generalizing args with
  | nil =>
      obtain rfl := Except.ok.inj h
      rfl
  | cons v rest ih =>
      cases v with
      | string s =>
          rw [Step.argsOfValues] at h
          obtain ⟨texts, hrest, rfl⟩ := map_eq_ok_iff.1 h
          rw [List.map_cons, ← ih hrest]
      | _ => cases h

/-- A call is read from the array of its function's name and its arguments. -/
lemma Step.eq_of_callOfValues {items : List Value} {step : Step}
    (h : Step.callOfValues items = .ok step) :
    ∃ f args, items = .string f.name :: args.map .string ∧ step = .call f args := by
  cases items with
  | nil => cases h
  | cons first rest =>
      cases first with
      | string name =>
          rw [Step.callOfValues] at h
          cases hname : TemplateFunction.ofName? name with
          | none => rw [hname] at h; cases h
          | some f =>
              simp only [hname] at h
              obtain ⟨args, hargs, rfl⟩ := map_eq_ok_iff.1 h
              refine ⟨f, args, ?_, rfl⟩
              rw [TemplateFunction.name_of_ofName? hname,
                ← Step.eq_map_string_of_argsOfValues hargs]
      | _ => cases h

/-- A value that stands for a step is written as one, up to the steps of a nested scope. -/
lemma Step.ofValue_cases {v : Value} {step : Step} (h : Step.ofValue v = .ok step) :
    (∃ x, v = .string x ∧ step = .text x) ∨
      (∃ f args, v = (Step.call f args).toValue ∧ step = .call f args) ∨
      ∃ items inner, v = .object [(Step.scopeKey, .array items)] ∧
        Script.ofValues items = .ok inner ∧ step = .scope inner := by
  unfold Step.ofValue at h
  split at h
  · next x =>
    obtain rfl := Except.ok.inj h
    exact .inl ⟨x, rfl, rfl⟩
  · obtain ⟨f, args, rfl, rfl⟩ := Step.eq_of_callOfValues h
    exact .inr (.inl ⟨f, args, by rw [Step.toValue], rfl⟩)
  · next key items =>
    split at h
    · next hkey =>
      subst hkey
      obtain ⟨inner, hinner, rfl⟩ := map_eq_ok_iff.1 h
      exact .inr (.inr ⟨items, inner, rfl, hinner, rfl⟩)
    · cases h
  · split at h <;> cases h
  · cases h
  · cases h

namespace Script

/-- The first of some steps is read from the first value, the others from the values behind it. -/
lemma ofValues_eq_cons {values : List Value} {step : Step} {rest : List Step}
    (h : ofValues values = .ok (step :: rest)) :
    ∃ v later, values = v :: later ∧ Step.ofValue v = .ok step ∧ ofValues later = .ok rest := by
  cases values with
  | nil => cases h
  | cons v later =>
      rw [ofValues] at h
      obtain ⟨first, hstep, h⟩ := bind_eq_ok_iff.1 h
      obtain ⟨steps, hlater, h⟩ := bind_eq_ok_iff.1 h
      obtain ⟨rfl, rfl⟩ := List.cons.inj (Except.ok.inj h)
      exact ⟨v, later, rfl, hstep, hlater⟩

/-- Steps are read from no other values than those that they are written as. -/
lemma eq_toValues_of_ofValues {values : List Value} {steps : List Step}
    (h : ofValues values = .ok steps) : values = toValues steps := by
  induction steps using ind generalizing values with
  | nil =>
      cases values with
      | nil => rfl
      | cons v later =>
          rw [ofValues] at h
          obtain ⟨first, -, h⟩ := bind_eq_ok_iff.1 h
          obtain ⟨steps, -, h⟩ := bind_eq_ok_iff.1 h
          cases h
  | text x rest ih =>
      obtain ⟨v, later, rfl, hstep, hlater⟩ := ofValues_eq_cons h
      rcases Step.ofValue_cases hstep with ⟨y, rfl, hy⟩ | ⟨f, args, -, hcall⟩ | ⟨_, _, -, -, hscope⟩
      · obtain rfl := Step.text.inj hy
        rw [toValues, ← ih hlater, Step.toValue]
      · cases hcall
      · cases hscope
  | call f args rest ih =>
      obtain ⟨v, later, rfl, hstep, hlater⟩ := ofValues_eq_cons h
      rcases Step.ofValue_cases hstep with ⟨y, -, hy⟩ | ⟨g, args', rfl, hcall⟩ | ⟨_, _, -, -, hscope⟩
      · cases hy
      · rw [toValues, ← ih hlater, hcall]
      · cases hscope
  | scope inner rest ihinner ihrest =>
      obtain ⟨v, later, rfl, hstep, hlater⟩ := ofValues_eq_cons h
      rcases Step.ofValue_cases hstep with ⟨y, -, hy⟩ | ⟨g, args, -, hcall⟩ |
        ⟨items, steps, rfl, hitems, hscope⟩
      · cases hy
      · cases hcall
      · obtain rfl := Step.scope.inj hscope
        rw [toValues, ← ihrest hlater, Step.toValue, ← ihinner hitems]

end Script

/-! ### Values that are no steps -/

/-- The values that are no step, whatever stands inside them. -/
inductive Misshapen : Value → Prop
  | null : Misshapen .null
  | bool (b : Bool) : Misshapen (.bool b)
  | number (n : Json.Number) : Misshapen (.number n)
  | emptyCall : Misshapen (.array [])
  | nameNotString {v : Value} (rest : List Value) (isNot : ∀ s, v ≠ .string s) :
    Misshapen (.array (v :: rest))
  | unknownName {name : String} (rest : List Value)
      (isNot : ∀ f : TemplateFunction, f.name ≠ name) :
    Misshapen (.array (.string name :: rest))
  | argumentNotString (name : Value) {v : Value} {args : List Value} (mem : v ∈ args)
      (isNot : ∀ s, v ≠ .string s) :
    Misshapen (.array (name :: args))
  | notSingleKey {members : List (String × Value)}
      (isNot : members.map Prod.fst ≠ [Step.scopeKey]) :
    Misshapen (.object members)
  | scopeNotArray {v : Value} (isNot : ∀ items, v ≠ .array items) :
    Misshapen (.object [(Step.scopeKey, v)])

namespace Script

/-- The value stands in the place of a step among the given ones: it is one of them, or it stands so
in a nested scope that is one of them. -/
inductive StandsIn (w : Value) : List Value → Prop
  | here {values : List Value} (mem : w ∈ values) : StandsIn w values
  | inside {values inner : List Value}
      (mem : .object [(Step.scopeKey, .array inner)] ∈ values) (stands : StandsIn w inner) :
    StandsIn w values

lemma StandsIn.cons {w : Value} {values : List Value} (h : StandsIn w values) (v : Value) :
    StandsIn w (v :: values) := by
  cases h with
  | here mem => exact .here (List.mem_cons_of_mem v mem)
  | inside mem stands => exact .inside (List.mem_cons_of_mem v mem) stands

/-- What stands among some values is the first one, stands inside it, or stands among the others. -/
lemma standsIn_cons_iff (w v : Value) (values : List Value) :
    StandsIn w (v :: values) ↔
      w = v ∨ (∃ inner, v = .object [(Step.scopeKey, .array inner)] ∧ StandsIn w inner) ∨
        StandsIn w values := by
  constructor
  · rintro (mem | ⟨mem, stands⟩)
    · rcases List.mem_cons.1 mem with rfl | hmem
      · exact .inl rfl
      · exact .inr (.inr (.here hmem))
    · rcases List.mem_cons.1 mem with rfl | hmem
      · exact .inr (.inl ⟨_, rfl, stands⟩)
      · exact .inr (.inr (.inside hmem stands))
  · rintro (rfl | ⟨inner, rfl, stands⟩ | stands)
    · exact .here (by simp)
    · exact .inside (by simp) stands
    · exact stands.cons v

/-- The induction principle of values read as steps: a property holds of all lists of values once it
holds of the empty one and is inherited by a value put in front, both from the values behind it and,
if the value is a nested scope, from the values in it. -/
@[elab_as_elim]
theorem indValues {P : List Value → Prop} (nil : P [])
    (cons : ∀ v rest, (∀ inner, v = .object [(Step.scopeKey, .array inner)] → P inner) → P rest →
      P (v :: rest)) : ∀ values, P values
  | [] => nil
  | v :: rest =>
    cons v rest (fun inner _ => indValues nil cons inner) (indValues nil cons rest)
termination_by values => sizeOf values
decreasing_by
  · subst_vars
    simp only [List.cons.sizeOf_spec, Value.object.sizeOf_spec, Value.array.sizeOf_spec,
      Prod.mk.sizeOf_spec]
    omega
  · rw [List.cons.sizeOf_spec]
    omega

/-- No value that a step is written as is misshapen, nor is one inside it. -/
lemma not_misshapen_of_standsIn {steps : List Step} {w : Value}
    (h : StandsIn w (toValues steps)) : ¬ Misshapen w := by
  induction steps using ind generalizing w with
  | nil =>
      rw [toValues] at h
      rcases h with mem | ⟨mem, -⟩ <;> cases mem
  | text x rest ih =>
      rw [toValues, Step.toValue, standsIn_cons_iff] at h
      rcases h with rfl | ⟨inner, hobject, -⟩ | hrest
      · rintro ⟨⟩
      · cases hobject
      · exact ih hrest
  | call f args rest ih =>
      rw [toValues, Step.toValue, standsIn_cons_iff] at h
      rcases h with rfl | ⟨inner, hobject, -⟩ | hrest
      · intro hbad
        cases hbad with
        | nameNotString _ isNot => exact isNot _ rfl
        | unknownName _ isNot => exact isNot f rfl
        | argumentNotString _ mem isNot =>
            obtain ⟨arg, -, rfl⟩ := List.mem_map.1 mem
            exact isNot arg rfl
      · cases hobject
      · exact ih hrest
  | scope inner rest ihinner ihrest =>
      rw [toValues, Step.toValue, standsIn_cons_iff] at h
      rcases h with rfl | ⟨items, hobject, hstands⟩ | hrest
      · intro hbad
        cases hbad with
        | notSingleKey isNot => exact isNot rfl
        | scopeNotArray isNot => exact isNot _ rfl
      · simp only [Value.object.injEq, List.cons.injEq, Prod.mk.injEq, Value.array.injEq, true_and,
          and_true] at hobject
        subst hobject
        exact ihinner hstands
      · exact ihrest hrest

end Script

/-- Arguments are not read only where one of them is no string. -/
lemma Step.exists_of_argsOfValues_error {name : String} {values : List Value} {e : StepError}
    (h : Step.argsOfValues name values = .error e) : ∃ v ∈ values, ∀ s, v ≠ .string s := by
  induction values generalizing e with
  | nil => cases h
  | cons v rest ih =>
      cases v with
      | string s =>
          rw [Step.argsOfValues] at h
          obtain ⟨w, hw, hnot⟩ := ih (map_eq_error_iff.1 h)
          exact ⟨w, List.mem_cons_of_mem _ hw, hnot⟩
      | _ => exact ⟨_, List.mem_cons_self, by simp⟩

/-- A call is not read only where its array is misshapen. -/
lemma Step.misshapen_of_callOfValues_error {items : List Value} {e : StepError}
    (h : Step.callOfValues items = .error e) : Misshapen (.array items) := by
  cases items with
  | nil => exact .emptyCall
  | cons first rest =>
      cases first with
      | string name =>
          rw [Step.callOfValues] at h
          cases hname : TemplateFunction.ofName? name with
          | none =>
              refine .unknownName rest ?_
              rintro f rfl
              rw [TemplateFunction.ofName?_name] at hname
              cases hname
          | some f =>
              simp only [hname] at h
              obtain ⟨v, hv, hnot⟩ := Step.exists_of_argsOfValues_error (map_eq_error_iff.1 h)
              exact .argumentNotString _ hv hnot
      | _ => exact .nameNotString rest (by simp)

/-- A step is not read only where its value is misshapen or where it is a nested scope whose steps
are not read. -/
lemma Step.ofValue_error_cases {v : Value} {e : StepError} (h : Step.ofValue v = .error e) :
    Misshapen v ∨ ∃ inner, v = .object [(Step.scopeKey, .array inner)] ∧
      Script.ofValues inner = .error e := by
  unfold Step.ofValue at h
  split at h
  · cases h
  · exact .inl (Step.misshapen_of_callOfValues_error h)
  · next key items =>
    split at h
    · next hkey =>
      subst hkey
      exact .inr ⟨items, rfl, map_eq_error_iff.1 h⟩
    · next hkey => exact .inl (.notSingleKey (by simpa using hkey))
  · next key w hnot =>
    by_cases hkey : key = Step.scopeKey
    · subst hkey
      exact .inl (.scopeNotArray fun items hitems => hnot items (by rw [hitems]))
    · exact .inl (.notSingleKey (by simpa using hkey))
  · next members _ hsingle =>
    refine .inl (.notSingleKey ?_)
    intro hkeys
    obtain ⟨⟨key, w⟩, rfl⟩ := List.length_eq_one_iff.1 (by simpa using congrArg List.length hkeys)
    exact hsingle key w rfl
  · cases v with
    | null => exact .inl .null
    | bool b => exact .inl (.bool b)
    | number n => exact .inl (.number n)
    | _ => simp_all

namespace Script

/-- Where steps are not read, a misshapen value stands among them. -/
lemma exists_misshapen_of_ofValues_error {values : List Value} {e : StepError}
    (h : ofValues values = .error e) : ∃ w, StandsIn w values ∧ Misshapen w := by
  induction values using indValues generalizing e with
  | nil => cases h
  | cons v rest ihinner ihrest =>
      rw [ofValues] at h
      rcases bind_eq_error_iff.1 h with hstep | ⟨step, -, h⟩
      · rcases Step.ofValue_error_cases hstep with hbad | ⟨inner, hv, hinner⟩
        · exact ⟨v, .here (by simp), hbad⟩
        · obtain ⟨w, hw, hbad⟩ := ihinner inner hv hinner
          exact ⟨w, .inside (by simp [hv]) hw, hbad⟩
      · rcases bind_eq_error_iff.1 h with hrest | ⟨steps, -, h⟩
        · obtain ⟨w, hw, hbad⟩ := ihrest hrest
          exact ⟨w, hw.cons v, hbad⟩
        · cases h

/-- **Scripts are read exactly.** Every script is read from the value that it is written as, and
from no other value. A value is rejected exactly if it is no array or if a value in the place of a
step is misshapen, at whatever depth. -/
theorem ofValue_exact :
    (∀ script : Script, ofValue script.toValue = .ok script) ∧
    (∀ (v : Value) (script : Script), ofValue v = .ok script → v = script.toValue) ∧
    (∀ v : Value, (∃ e, ofValue v = .error e) ↔
      (∀ items, v ≠ .array items) ∨
        ∃ items w, v = .array items ∧ StandsIn w items ∧ Misshapen w) := by
  have hexact : ∀ (v : Value) (script : Script), ofValue v = .ok script → v = script.toValue := by
    intro v script h
    cases v with
    | array items => rw [toValue, ← eq_toValues_of_ofValues h]
    | _ => cases h
  refine ⟨ofValue_toValue, hexact, ?_⟩
  intro v
  constructor
  · rintro ⟨e, he⟩
    cases v with
    | array items =>
        obtain ⟨w, hw, hbad⟩ := exists_misshapen_of_ofValues_error he
        exact .inr ⟨items, w, rfl, hw, hbad⟩
    | _ => exact .inl (by simp)
  · intro h
    cases hv : ofValue v with
    | error e => exact ⟨e, rfl⟩
    | ok script =>
        obtain rfl := hexact v script hv
        rcases h with hnot | ⟨items, w, hitems, hw, hbad⟩
        · exact absurd rfl (hnot (toValues script))
        · obtain rfl := Value.array.inj hitems
          exact absurd hbad (not_misshapen_of_standsIn hw)

end Script

end RuleScript
