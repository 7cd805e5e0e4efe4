import RuleScript.Proofs.Script.Induction

/-!
Where a script stops. A failed rendering is one of the script cut before the call that fails, with
the open scopes closed there, and what stands behind the call does not matter.

* `Front`: what stands in front of a step, in document order; `Front.closed` is the script that ends
  there, and `Front.Leads` says that a script begins so;
* `Front.StopsAt`: on a scope, a front leads to a step that fails, and the scope that is left is the
  one that the closed front leaves; `stopsAt_here`, `StopsAt.behind` and `StopsAt.inside` build it
  up along the way to the step;
* `Stops`, `stops_of_error`: a script that fails stops at one of its calls;
* `render_cut`: what that says of rendering.
-/

namespace RuleScript.Script

variable {s t u : Scope} {e : TemplateError}

/-! ### Fronts -/

/-- What stands in front of a step of a script. -/
inductive Front where
  /-- Nothing: the step is the first one. -/
  | here
  /-- A step, and what stands between it and the step. -/
  | behind (first : Step) (front : Front)
  /-- The beginning of a nested scope, and what stands in that scope in front of the step. -/
  | inside (front : Front)

namespace Front

/-- The script that ends where the front ends, with the scopes closed that are open there. -/
def closed : Front → Script
  | here => []
  | behind first front => first :: front.closed
  | inside front => [.scope front.closed]

/-- The script begins with the front and goes on with the step. What comes behind the step is
anything, in every scope that is open. -/
inductive Leads (step : Step) : Front → Script → Prop
  | here (rest : List Step) : Leads step here (step :: rest)
  | behind {front : Front} {rest : List Step} (first : Step) (h : Leads step front rest) :
    Leads step (behind first front) (first :: rest)
  | inside {front : Front} {inner : List Step} (rest : List Step) (h : Leads step front inner) :
    Leads step (inside front) (.scope inner :: rest)

/-- On a scope the front leads to a step that fails: the closed front runs to its end, and every
script that begins with the front and the step fails with the error, both leaving the same scope. -/
structure StopsAt (front : Front) (step : Step) (s : Scope) (e : TemplateError) (t : Scope) :
    Prop where
  closed_ok : ∃ xs, (texts front.closed s).result = .ok xs
  closed_scope : (texts front.closed s).scope = t
  fails : ∀ {steps : List Step}, front.Leads step steps →
    (texts steps s).result = .error e ∧ (texts steps s).scope = t

/-! ### The way to the step that fails -/

/-- A call that fails leaves the scope as it was. -/
lemma stopsAt_here {f : TemplateFunction} {args : List String} {log : List Event}
    (h : f.invoke args s = ⟨.error e, t, log⟩) : here.StopsAt (.call f args) s e t := by
  have hresult : (f.invoke args s).result = .error e := by rw [h]
  have hscope := TemplateFunction.scope_of_invoke_error hresult
  rw [h] at hscope
  obtain rfl := hscope
  refine ⟨⟨[], rfl⟩, rfl, ?_⟩
  rintro _ (⟨rest⟩ | _ | _)
  rw [texts_call_of_error h]
  exact ⟨rfl, rfl⟩

/-- What happens behind a step that succeeds happens on the scope that the step leaves. -/
lemma StopsAt.behind {front : Front} {first step : Step} {xs : List String} {log : List Event}
    (hfirst : first.texts s = ⟨.ok xs, t, log⟩) (h : front.StopsAt step t e u) :
    (behind first front).StopsAt step s e u := by
  obtain ⟨ys, hys⟩ := h.closed_ok
  refine ⟨⟨xs ++ ys, ?_⟩, ?_, ?_⟩
  · rw [closed, texts_cons_of_ok hfirst, hys]
    rfl
  · rw [closed, texts_cons_of_ok hfirst]
    exact h.closed_scope
  · rintro _ (_ | ⟨_, hrest⟩ | _)
    obtain ⟨hresult, hscope⟩ := h.fails hrest
    rw [texts_cons_of_ok hfirst, hresult]
    exact ⟨rfl, hscope⟩

/-- What happens in a nested scope happens in a frame of its own, which is left again. -/
lemma StopsAt.inside {front : Front} {step : Step} (h : front.StopsAt step s.push e t)
    (hpop : t.pop? = some u) : (inside front).StopsAt step s e u := by
  obtain ⟨xs, hxs⟩ := h.closed_ok
  have hclosed : (texts front.closed s.push).scope.pop? = some u := by
    rw [h.closed_scope]
    exact hpop
  refine ⟨⟨xs ++ [], ?_⟩, ?_, ?_⟩
  · rw [closed, texts_scope_of_ok hxs hclosed]
    rfl
  · rw [closed, texts_scope_of_ok hxs hclosed]
    rfl
  · rintro _ (_ | _ | @⟨_, inner, rest, hinner⟩)
    obtain ⟨hresult, hscope⟩ := h.fails hinner
    have hleft : (texts inner s.push).scope.pop? = some u := by
      rw [hscope]
      exact hpop
    rw [texts_scope_of_error hresult hleft]
    exact ⟨rfl, rfl⟩

end Front

/-! ### Every failure is that of a call -/

/-- On a scope the script stops at one of its calls, with the error. -/
def Stops (steps : List Step) (s : Scope) (e : TemplateError) : Prop :=
  ∃ (front : Front) (f : TemplateFunction) (args : List String),
    front.Leads (.call f args) steps ∧ front.StopsAt (.call f args) s e (texts steps s).scope

/-- What stops behind a step that succeeds stops there. -/
lemma stops_cons {first : Step} {rest : List Step} {xs : List String} {log : List Event}
    (hfirst : first.texts s = ⟨.ok xs, t, log⟩) (h : Stops rest t e) :
    Stops (first :: rest) s e := by
  obtain ⟨front, f, args, hleads, hstops⟩ := h
  refine ⟨.behind first front, f, args, .behind first hleads, ?_⟩
  rw [texts_cons_of_ok hfirst]
  exact hstops.behind hfirst

/-- A script that fails stops at a call. -/
theorem stops_of_error {steps : List Step} (h : (texts steps s).result = .error e) :
    Stops steps s e := by
  induction steps using ind generalizing s with
  | nil => cases h
  | text x rest ih =>
      have hfirst : (Step.text x).texts s = ⟨.ok [x], s, [.emitting x]⟩ := rfl
      rw [texts_cons_of_ok hfirst] at h
      exact stops_cons hfirst (ih (map_eq_error_iff.1 h))
  | call f args rest ih =>
      rcases hinv : f.invoke args s with ⟨e' | x, t, log⟩
      · -- this is the call that fails
        have htexts := texts_call_of_error hinv rest
        rw [htexts] at h
        obtain rfl := Except.error.inj h
        refine ⟨.here, f, args, .here rest, ?_⟩
        rw [htexts]
        exact Front.stopsAt_here hinv
      · have hfirst : (Step.call f args).texts s = ⟨.ok [x], t, log ++ [.returned f x]⟩ :=
          Action.bind_of_ok hinv
        rw [texts_cons_of_ok hfirst] at h
        exact stops_cons hfirst (ih (map_eq_error_iff.1 h))
  | scope inner rest ihi ihr =>
      obtain ⟨t, ht, -⟩ := exists_pop?_texts inner s
      cases hinner : (texts inner s.push).result with
      | error e' =>
          -- the call that fails stands in the nested scope
          have htexts := texts_scope_of_error hinner ht rest
          rw [htexts] at h
          obtain rfl := Except.error.inj h
          obtain ⟨front, f, args, hleads, hstops⟩ := ihi hinner
          refine ⟨.inside front, f, args, .inside rest hleads, ?_⟩
          rw [htexts]
          exact hstops.inside ht
      | ok xs =>
          have hfirst := Action.inFrame_of_pop? ht
          rw [hinner] at hfirst
          rw [texts_scope_of_ok hinner ht] at h
          exact stops_cons hfirst (ihr (map_eq_error_iff.1 h))

/-- **A failed rendering is that of the script cut before the call that fails.** If a script fails
on a scope, then at a call of it: the script that ends in front of the call, with the open scopes
closed there, is rendered to its end and leaves just the scope that the failed rendering leaves; and
every script that is the same up to the call, whatever follows it in the open scopes or behind them,
fails with the same error and leaves the same scope. -/
theorem render_cut (script : Script) (s : Scope) (e : TemplateError)
    (h : (script.render s).result = .error e) :
    ∃ (front : Front) (f : TemplateFunction) (args : List String),
      front.Leads (.call f args) script ∧
      (∃ x, (front.closed.render s).result = .ok x) ∧
      (front.closed.render s).scope = (script.render s).scope ∧
      ∀ other : Script, front.Leads (.call f args) other →
        (other.render s).result = .error e ∧
          (other.render s).scope = (script.render s).scope := by
  obtain ⟨front, f, args, hleads, hstops⟩ := stops_of_error (map_eq_error_iff.1 h)
  obtain ⟨xs, hxs⟩ := hstops.closed_ok
  refine ⟨front, f, args, hleads, ⟨String.join xs, ?_⟩, hstops.closed_scope, ?_⟩
  · rw [render_eq, hxs]
    rfl
  · intro other hother
    obtain ⟨hresult, hscope⟩ := hstops.fails hother
    rw [render_eq, hresult]
    exact ⟨rfl, hscope⟩

/-- A call that fails two scopes deep, behind a change to the table outside, which stays. -/
theorem render_cut_nested :
    (render [.call .createEmptyTables [], .scope [.call .addRule ["A", "a"],
      .scope [.text "b", .call .addEmitter ["B", "b"], .text "c"]], .text "d"] .root).result =
        .error (.ruleNotFound "B") ∧
    ∃ (front : Front) (f : TemplateFunction) (args : List String),
      front.Leads (.call f args) [.call .createEmptyTables [], .scope [.call .addRule ["A", "a"],
        .scope [.text "b", .call .addEmitter ["B", "b"], .text "c"]], .text "d"] ∧
      (∃ x, (front.closed.render .root).result = .ok x) ∧
      (front.closed.render .root).scope =
        ⟨[("rules", RuleTable.toValue ⟨[.plain "A" "a"]⟩)], []⟩ ∧
      ∀ other : Script, front.Leads (.call f args) other →
        (other.render .root).result = .error (.ruleNotFound "B") ∧
          (other.render .root).scope = ⟨[("rules", RuleTable.toValue ⟨[.plain "A" "a"]⟩)], []⟩ :=
  ⟨rfl, render_cut [.call .createEmptyTables [], .scope [.call .addRule ["A", "a"],
    .scope [.text "b", .call .addEmitter ["B", "b"], .text "c"]], .text "d"] .root _ rfl⟩

end RuleScript.Script
