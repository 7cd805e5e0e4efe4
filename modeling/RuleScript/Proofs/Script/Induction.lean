import RuleScript.Proofs.Result
import RuleScript.Proofs.Template.Atomic
import RuleScript.Script.Render

/-!
How a script runs, step by step, and what follows for whole scripts by induction.

* `texts_cons_of_ok`, `texts_text`, `texts_call_of_ok`, `texts_call_of_error`, `texts_scope_of_ok`,
  `texts_scope_of_error`: what the first step comes to; `texts_append`: a script in two parts;
* `texts_keeps`: what every call does to a scope and every nested scope hands on, a whole script
  does; it leaves as many frames as it found (`depth_texts`), so that every frame that was entered
  for a nested scope can be left (`exists_pop?_texts`).
-/

namespace RuleScript

variable {s t : Scope}

/-- What is logged for a frame that was entered from one scope and left to another, around what is
logged inside it. -/
def frameLog (s t : Scope) (inside : List Event) : List Event :=
  .enteredFrame (s.depth + 1) :: .enteringScope (s.depth + 1) ::
    (inside ++ [.leavingScope (t.depth + 1), .leftFrame t.depth])

/-- An action in a frame of its own has the result of the action, and the frame is left again. -/
lemma Action.inFrame_of_pop? {α : Type} {a : Action α} (h : (a s.push).scope.pop? = some t) :
    a.inFrame s = ⟨(a s.push).result, t, frameLog s t (a s.push).log⟩ := by
  simp [inFrame, frameLog, bind, andThen, push, depth, log, attempt, pop, h, ofExcept,
    Scope.depth_of_pop? h]

namespace Script

/-! ### The first step -/

lemma texts_cons_of_ok {first : Step} {xs : List String} {log : List Event}
    (h : first.texts s = ⟨.ok xs, t, log⟩) (rest : List Step) :
    texts (first :: rest) s =
      ⟨(texts rest t).result.map (xs ++ ·), (texts rest t).scope, log ++ (texts rest t).log⟩ :=
  Action.bind_of_ok h

lemma texts_text (x : String) (rest : List Step) (s : Scope) :
    texts (.text x :: rest) s =
      ⟨(texts rest s).result.map (x :: ·), (texts rest s).scope,
        .emitting x :: (texts rest s).log⟩ := rfl

lemma texts_call_of_ok {f : TemplateFunction} {args : List String} {x : String} {log : List Event}
    (h : f.invoke args s = ⟨.ok x, t, log⟩) (rest : List Step) :
    texts (.call f args :: rest) s =
      ⟨(texts rest t).result.map (x :: ·), (texts rest t).scope,
        log ++ .returned f x :: (texts rest t).log⟩ := by
  have hstep : (Step.call f args).texts s = ⟨.ok [x], t, log ++ [.returned f x]⟩ :=
    Action.bind_of_ok h
  refine (Action.bind_of_ok hstep).trans ?_
  rw [List.append_assoc]
  rfl

lemma texts_call_of_error {f : TemplateFunction} {args : List String} {e : TemplateError}
    {log : List Event} (h : f.invoke args s = ⟨.error e, t, log⟩) (rest : List Step) :
    texts (.call f args :: rest) s = ⟨.error e, t, log⟩ := by
  have hstep : (Step.call f args).texts s = ⟨.error e, t, log⟩ := Action.bind_of_error h
  exact Action.bind_of_error hstep

lemma texts_scope_of_error {inner : List Step} {e : TemplateError}
    (h : (texts inner s.push).result = .error e) (ht : (texts inner s.push).scope.pop? = some t)
    (rest : List Step) :
    texts (.scope inner :: rest) s =
      ⟨.error e, t, frameLog s t (texts inner s.push).log⟩ := by
  have hframe := Action.inFrame_of_pop? ht
  rw [h] at hframe
  exact Action.bind_of_error hframe

lemma texts_scope_of_ok {inner : List Step} {xs : List String}
    (h : (texts inner s.push).result = .ok xs) (ht : (texts inner s.push).scope.pop? = some t)
    (rest : List Step) :
    texts (.scope inner :: rest) s =
      ⟨(texts rest t).result.map (xs ++ ·), (texts rest t).scope,
        frameLog s t (texts inner s.push).log ++ (texts rest t).log⟩ := by
  have hframe := Action.inFrame_of_pop? ht
  rw [h] at hframe
  exact Action.bind_of_ok hframe

/-- A script in two parts is the one part after the other. -/
lemma texts_append (first rest : List Step) :
    texts (first ++ rest) = texts first >>= fun xs => (xs ++ ·) <$> texts rest := by
  induction first with
  | nil => simp [texts]
  | cons step first ih => simp [texts, ih]

lemma render_eq (script : Script) (s : Scope) :
    render script s =
      ⟨(texts script s).result.map String.join, (texts script s).scope, (texts script s).log⟩ := rfl

/-! ### What a whole script keeps -/

/-- What every call does to a scope and every nested scope hands on, a whole script does, be it
rendered to its end or not; and it fails only as calls do. It leaves as many frames as it found, so
that the frame of a nested scope is always there to be left. -/
theorem texts_keeps {R : Scope → Scope → Prop} {E : TemplateError → Prop} (refl : ∀ s, R s s)
    (trans : ∀ s t u, R s t → R t u → R s u)
    (call : ∀ f args s, R s (TemplateFunction.invoke f args s).scope)
    (error : ∀ f args s e, (TemplateFunction.invoke f args s).result = .error e → E e)
    (frame : ∀ s t u, R s.push t → t.pop? = some u → R s u) (steps : List Step) (s : Scope) :
    (texts steps s).scope.depth = s.depth ∧ R s (texts steps s).scope ∧
      ∀ e, (texts steps s).result = .error e → E e := by
  induction steps using ind generalizing s with
  | nil => exact ⟨rfl, refl s, fun e he => by cases he⟩
  | text x rest ih =>
      obtain ⟨hdepth, hR, hE⟩ := ih s
      refine ⟨hdepth, hR, ?_⟩
      intro e he
      exact hE e (map_eq_error_iff.1 he)
  | call f args rest ih =>
      have hdepth := f.depth_invoke args s
      have hcall := call f args s
      rcases h : f.invoke args s with ⟨e | x, t, log⟩
      · rw [h] at hdepth hcall
        rw [texts_call_of_error h]
        have herror : (f.invoke args s).result = .error e := by rw [h]
        refine ⟨hdepth, hcall, ?_⟩
        intro e' he'
        obtain rfl := Except.error.inj he'
        exact error f args s e herror
      · rw [h] at hdepth hcall
        obtain ⟨hdepth', hR, hE⟩ := ih t
        rw [texts_call_of_ok h]
        refine ⟨hdepth'.trans hdepth, trans s t _ hcall hR, ?_⟩
        intro e he
        exact hE e (map_eq_error_iff.1 he)
  | scope inner rest ihi ihr =>
      obtain ⟨hdepth, hR, hE⟩ := ihi s.push
      obtain ⟨t, ht, hback⟩ := Scope.exists_pop?_of_depth_eq hdepth
      have hst : R s t := frame s _ t hR ht
      cases h : (texts inner s.push).result with
      | error e =>
          rw [texts_scope_of_error h ht]
          refine ⟨hback, hst, ?_⟩
          intro e' he'
          rw [h] at hE
          exact hE e' he'
      | ok xs =>
          obtain ⟨hdepth', hR', hE'⟩ := ihr t
          rw [texts_scope_of_ok h ht]
          refine ⟨hdepth'.trans hback, trans s t _ hst hR', ?_⟩
          intro e he
          exact hE' e (map_eq_error_iff.1 he)

/-- A script leaves as many frames as it found. -/
theorem depth_texts (steps : List Step) (s : Scope) : (texts steps s).scope.depth = s.depth :=
  (texts_keeps (R := fun _ _ => True) (E := fun _ => True) (fun _ => trivial)
    (fun _ _ _ _ _ => trivial) (fun _ _ _ => trivial) (fun _ _ _ _ _ => trivial)
    (fun _ _ _ _ _ => trivial) steps s).1

/-- The frame of a nested scope can be left when its steps are through. -/
theorem exists_pop?_texts (inner : List Step) (s : Scope) :
    ∃ t, (texts inner s.push).scope.pop? = some t ∧ t.depth = s.depth :=
  Scope.exists_pop?_of_depth_eq (depth_texts inner s.push)

end Script

end RuleScript
