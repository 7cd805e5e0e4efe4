import RuleScript.Proofs.Script.Induction
import RuleScript.Proofs.Template.Apart

/-!
The table and the counter do not interfere. From a script that runs to its end the calls about one
of them can be taken out, and nothing that is about the other changes.

* `without`: the script that is left when the calls about a cell are taken out, at all depths;
* `leaves`, `textsApart`: the steps that give the texts of a script, and the texts that are not made
  from the cell;
* `RunsWithout`, `runsWithout`: the script and what is left of it, side by side;
* `render_without`: what is left of the script gives what is left of its text.
-/

namespace RuleScript

variable {s t u v : Scope} {c : Cell}

/-! ### Scripts without the calls about one cell -/

mutual

/-- What is left of a step when the calls about a cell are taken out. -/
def Step.without (c : Cell) : Step → List Step
  | .text x => [.text x]
  | .call f args => if f.cell = c then [] else [.call f args]
  | .scope steps => [.scope (Script.without c steps)]

/-- What is left of some steps when the calls about a cell are taken out, at all depths. -/
def Script.without (c : Cell) : List Step → List Step
  | [] => []
  | step :: rest => step.without c ++ Script.without c rest

end

mutual

/-- The texts and calls of a step in document order. -/
def Step.leaves : Step → List Step
  | .text x => [.text x]
  | .call f args => [.call f args]
  | .scope steps => Script.leaves steps

/-- The texts and calls of some steps in document order: just those steps that give a text. -/
def Script.leaves : List Step → List Step
  | [] => []
  | step :: rest => step.leaves ++ Script.leaves rest

end

/-- Whether the step is a call of the function. -/
def Step.calls (f : TemplateFunction) : Step → Bool
  | .call g _ => g = f
  | .text _ | .scope _ => false

/-- The step gives the text: a text gives itself, and a call what it comes to on some scope. -/
inductive Step.Gives : Step → String → Prop
  | text (x : String) : Gives (.text x) x
  | call {f : TemplateFunction} {args : List String} {x : String} {s : Scope}
    (h : (f.invoke args s).result = .ok x) : Gives (.call f args) x

namespace Script

/-- Of the texts that the leaves of a script give, one each, those that are not given by a call that
prints what is kept in the cell. -/
def textsApart (c : Cell) (leaves : List Step) (xs : List String) : List String :=
  ((leaves.zip xs).filter fun p => !p.1.calls c.printer).map Prod.snd

lemma textsApart_append {leaves : List Step} {xs : List String} (h : leaves.length = xs.length)
    (c : Cell) (later : List Step) (ys : List String) :
    textsApart c (leaves ++ later) (xs ++ ys) =
      textsApart c leaves xs ++ textsApart c later ys := by
  simp [textsApart, List.zip_append h]

/-- A script that gives some texts on one scope, one for each of its leaves, runs to its end on
another one, where the calls about a cell are taken out of it: of the texts those are left that are
not made from the cell, the scopes that are left agree but for the cell, and on the second one the
cell stays as it was. -/
structure RunsWithout (c : Cell) (steps : List Step) (s t : Scope) (xs : List String) : Prop where
  gives : List.Forall₂ Step.Gives (leaves steps) xs
  result : (texts (without c steps) t).result.map String.join =
    .ok (String.join (textsApart c (leaves steps) xs))
  agree : (texts steps s).scope.AgreeBut c (texts (without c steps) t).scope
  column : (texts (without c steps) t).scope.column c.key = t.column c.key

namespace RunsWithout

/-- What holds of the first step and of the rest behind it holds of the whole. -/
lemma cons {first : Step} {rest : List Step} {xs ys zs : List String} {log log' : List Event}
    (hfirst : first.texts s = ⟨.ok xs, u, log⟩)
    (hwithout : texts (first.without c) t = ⟨.ok ys, v, log'⟩)
    (hgives : List.Forall₂ Step.Gives first.leaves xs)
    (hjoin : String.join ys = String.join (textsApart c first.leaves xs))
    (hcolumn : v.column c.key = t.column c.key) (hrest : RunsWithout c rest u v zs) :
    RunsWithout c (first :: rest) s t (xs ++ zs) := by
  have hsteps := texts_cons_of_ok hfirst rest
  have hleft : texts (without c (first :: rest)) t =
      ⟨(texts (without c rest) v).result.map (ys ++ ·), (texts (without c rest) v).scope,
        log' ++ (texts (without c rest) v).log⟩ := by
    rw [without, texts_append]
    exact Action.bind_of_ok hwithout
  obtain ⟨ws, hws, hwsjoin⟩ := map_eq_ok_iff.1 hrest.result
  have hall : String.join (ys ++ ws) =
      String.join (textsApart c (leaves (first :: rest)) (xs ++ zs)) :=
    calc String.join (ys ++ ws)
        = String.join ys ++ String.join ws := String.join_append
      _ = String.join (textsApart c first.leaves xs) ++
            String.join (textsApart c (leaves rest) zs) := by rw [hjoin, hwsjoin]
      _ = String.join (textsApart c first.leaves xs ++ textsApart c (leaves rest) zs) :=
            String.join_append.symm
      _ = String.join (textsApart c (leaves (first :: rest)) (xs ++ zs)) := by
            rw [leaves, textsApart_append hgives.length_eq]
  refine ⟨?_, ?_, ?_, ?_⟩
  · rw [leaves]
    exact List.rel_append hgives hrest.gives
  · rw [hleft, hws, ← hall]
    rfl
  · rw [hsteps, hleft]
    exact hrest.agree
  · rw [hleft]
    exact hrest.column.trans hcolumn

end RunsWithout

/-- A call about the cell gives no text that is not made from the cell. -/
lemma join_textsApart_of_cell {f : TemplateFunction} {args : List String} {x : String}
    (h : (f.invoke args s).result = .ok x) (hf : f.cell = c) :
    String.join [] = String.join (textsApart c [.call f args] [x]) := by
  by_cases hprinter : f = c.printer
  · simp [textsApart, Step.calls, hprinter]
  · have hempty := TemplateFunction.eq_empty_of_invoke h (hf ▸ hprinter)
    simp [textsApart, Step.calls, hprinter, hempty]

/-- The text of a call about the other cell is not made from the cell. -/
lemma join_textsApart_of_ne {f : TemplateFunction} (hf : f.cell ≠ c) (args : List String)
    (x : String) : String.join [x] = String.join (textsApart c [.call f args] [x]) := by
  have hprinter : f ≠ c.printer := by
    rintro rfl
    exact hf c.cell_printer
  simp [textsApart, Step.calls, hprinter]

/-- Without the calls about a cell a script does the rest of what it does. -/
theorem runsWithout {steps : List Step} {xs : List String} (h : s.AgreeBut c t)
    (hxs : (texts steps s).result = .ok xs) : RunsWithout c steps s t xs := by
  induction steps using ind generalizing s t xs with
  | nil =>
      obtain rfl := Except.ok.inj hxs
      exact ⟨.nil, rfl, h, rfl⟩
  | text x rest ih =>
      have hfirst : (Step.text x).texts s = ⟨.ok [x], s, [.emitting x]⟩ := rfl
      have hwithout : texts ((Step.text x).without c) t = ⟨.ok [x], t, [.emitting x]⟩ := rfl
      rw [texts_cons_of_ok hfirst] at hxs
      obtain ⟨zs, hzs, rfl⟩ := map_eq_ok_iff.1 hxs
      exact .cons hfirst hwithout (.cons (.text x) .nil) rfl rfl (ih h hzs)
  | call f args rest ih =>
      rcases hinv : f.invoke args s with ⟨e | x, u, log⟩
      · rw [texts_call_of_error hinv] at hxs
        cases hxs
      have hfirst : (Step.call f args).texts s = ⟨.ok [x], u, log ++ [.returned f x]⟩ :=
        Action.bind_of_ok hinv
      rw [texts_cons_of_ok hfirst] at hxs
      obtain ⟨zs, hzs, rfl⟩ := map_eq_ok_iff.1 hxs
      have hresult : (f.invoke args s).result = .ok x := by rw [hinv]
      have hgives : List.Forall₂ Step.Gives [.call f args] [x] := .cons (.call hresult) .nil
      by_cases hf : f.cell = c
      · -- the call is taken out: what it does on the first scope is about the cell only
        have hwithout : texts ((Step.call f args).without c) t = ⟨.ok [], t, []⟩ := by
          rw [Step.without, if_pos hf]
          rfl
        have hagree : u.AgreeBut c t := by
          intro key hkey
          have hcolumn := f.column_invoke args s (hf ▸ hkey)
          rw [hinv] at hcolumn
          rw [h key hkey, hcolumn]
        exact .cons hfirst hwithout hgives (join_textsApart_of_cell hresult hf) rfl (ih hagree hzs)
      · -- the call stays: it cannot tell the scopes apart
        have hkey : f.cell.key ≠ c.key := fun hkey => hf (Cell.key_injective hkey)
        obtain ⟨hresultT, hagree⟩ := f.respects_invoke args (Scope.alike_agreeBut hkey)
          (fun _ _ _ _ h => h.add _ _) h
        have hcolumn := f.column_invoke args t hkey.symm
        rcases hinvT : f.invoke args t with ⟨r, v, log'⟩
        rw [hinv, hinvT] at hresultT hagree
        rw [hinvT] at hcolumn
        obtain rfl := hresultT
        have hwithout : texts ((Step.call f args).without c) t =
            ⟨.ok [x], v, log' ++ [.returned f x]⟩ := by
          rw [Step.without, if_neg hf]
          exact texts_call_of_ok hinvT []
        exact .cons hfirst hwithout hgives (join_textsApart_of_ne hf args x) hcolumn (ih hagree hzs)
  | scope inner rest ihi ihr =>
      obtain ⟨u, hu, -⟩ := exists_pop?_texts inner s
      obtain ⟨v, hv, -⟩ := exists_pop?_texts (without c inner) t
      cases hinner : (texts inner s.push).result with
      | error e =>
          rw [texts_scope_of_error hinner hu] at hxs
          cases hxs
      | ok ys =>
          rw [texts_scope_of_ok hinner hu] at hxs
          obtain ⟨zs, hzs, rfl⟩ := map_eq_ok_iff.1 hxs
          have hruns := ihi h.push hinner
          obtain ⟨ws, hws, hwsjoin⟩ := map_eq_ok_iff.1 hruns.result
          have hfirst := Action.inFrame_of_pop? hu
          rw [hinner] at hfirst
          have hwithout := texts_scope_of_ok hws hv []
          have hcolumn : v.column c.key = t.column c.key := by
            rw [Scope.column_of_pop? hv, hruns.column, Scope.column_push, List.tail_cons]
          have hjoin : String.join (ws ++ []) = String.join (textsApart c (leaves inner) ys) := by
            rw [List.append_nil, hwsjoin]
          exact .cons hfirst hwithout hruns.gives hjoin hcolumn (ihr (hruns.agree.pop hu hv) hzs)

/-- **The table and the counter do not interfere.** Let a script run to its end on a scope, and take
out of it, at all depths, the calls about the counter, `resetVariables` and `genVar`; or those about
the table, which are all others. What is left of the script runs to its end too. Its text is that of
the script with just the texts of `genVar`, or of `constructPeg`, taken out; and it leaves the same
frames, with the bindings of the counter's, or of the table's, key as they were at the start, and
all others as the script leaves them. -/
theorem render_without (c : Cell) (script : Script) (s : Scope) (x : String)
    (h : (script.render s).result = .ok x) :
    ∃ xs : List String,
      (texts script s).result = .ok xs ∧ List.Forall₂ Step.Gives (leaves script) xs ∧
      x = String.join xs ∧
      (render (without c script) s).result =
        .ok (String.join (textsApart c (leaves script) xs)) ∧
      (render (without c script) s).scope.depth = (script.render s).scope.depth ∧
      ∀ n key, (render (without c script) s).scope.binding? n key =
        if key = c.key then s.binding? n key else (script.render s).scope.binding? n key := by
  obtain ⟨xs, hxs, hx⟩ := map_eq_ok_iff.1 h
  have hruns : RunsWithout c script s s xs := runsWithout (.refl c s) hxs
  have hdepth : (render (without c script) s).scope.depth = (script.render s).scope.depth :=
    (depth_texts _ s).trans (depth_texts _ s).symm
  refine ⟨xs, hxs, hruns.gives, hx.symm, hruns.result, hdepth, ?_⟩
  intro n key
  split
  · next hkey =>
    subst hkey
    exact Scope.binding?_eq_of_column_eq hruns.column n
  · next hkey => exact Scope.binding?_eq_of_column_eq (hruns.agree key hkey) n

/-- Without the calls about the counter the rules and the forms of a script are the same, and the
counter outside stays as it was. -/
theorem render_without_counter :
    (render [.call .genVar [], .scope [.call .createEmptyTables [], .call .resetVariables [],
        .call .addRule ["A", "a"], .call .genVar [], .call .constructPeg []]]
        ⟨[("variable", .natural 4)], []⟩).result = .ok "v4v0\n(define-peg A a undefined)" ∧
      (render (without .counter [.call .genVar [], .scope [.call .createEmptyTables [],
        .call .resetVariables [], .call .addRule ["A", "a"], .call .genVar [],
        .call .constructPeg []]]) ⟨[("variable", .natural 4)], []⟩).result =
          .ok "\n(define-peg A a undefined)" ∧
      (render (without .counter [.call .genVar [], .scope [.call .createEmptyTables [],
        .call .resetVariables [], .call .addRule ["A", "a"], .call .genVar [],
        .call .constructPeg []]]) ⟨[("variable", .natural 4)], []⟩).scope.binding? 0 "variable" =
          some (.natural 4) := by
  have hrun : (render [.call .genVar [], .scope [.call .createEmptyTables [],
      .call .resetVariables [], .call .addRule ["A", "a"], .call .genVar [],
      .call .constructPeg []]] ⟨[("variable", .natural 4)], []⟩).result =
        .ok "v4v0\n(define-peg A a undefined)" := rfl
  obtain ⟨xs, hxs, -, -, hresult, -, hbinding⟩ := render_without .counter
    [.call .genVar [], .scope [.call .createEmptyTables [], .call .resetVariables [],
      .call .addRule ["A", "a"], .call .genVar [], .call .constructPeg []]]
    ⟨[("variable", .natural 4)], []⟩ _ hrun
  obtain rfl := Except.ok.inj hxs
  exact ⟨hrun, hresult.trans rfl, (hbinding 0 "variable").trans rfl⟩

end Script

end RuleScript
