import RuleScript.Proofs.Script.Kept
import RuleScript.Proofs.Template.TableHistory
import RuleScript.Proofs.Typed.Simulation

/-!
When a script leaves a table in the root frame, and what is in it.

* `SetsUpTable`: a table is set up outside all nested scopes;
* `isSome_table_texts`: behind a script the innermost frame has a table exactly if it had one before or
  the script sets one up in it; what nested scopes do plays no part;
* `load_behind_render`, `render_constructPeg`: the table that is loaded behind a script, and what
  printing it at the end of the script would add.
-/

namespace RuleScript

variable {s t : Scope}

/-! ### A call -/

/-- Behind a call the innermost frame has a table if it had one, or if the call has set one up. -/
lemma Call.Effect.isSome_table {c : Call} {o : Outcome String} (h : Call.Effect s c o) :
    (o.scope.binding? 0 Tables.key).isSome ↔
      (s.binding? 0 Tables.key).isSome ∨ c.function = .createEmptyTables := by
  cases h with
  | tableCreated =>
      rw [Scope.binding?_add]
      simp [Call.function]
  | counterReset =>
      have hne : Tables.key ≠ Counter.key := by decide
      rw [Scope.binding?_add]
      simp [Call.function, hne]
  | ruleAdded load store =>
      rw [Scope.isSome_binding?_of_modify? store]
      simp [Call.function]
  | emitterAttached load attach store =>
      rw [Scope.isSome_binding?_of_modify? store]
      simp [Call.function]
  | nameTaken current lt store =>
      rw [Scope.isSome_binding?_of_modify? store]
      simp [Call.function]
  | @noTable c e reads load =>
      have hne : c.function ≠ .createEmptyTables := by
        cases c <;> simp_all [Call.function, Call.readsTable]
      simp [hne]
  | formsPrinted load => simp [Call.function]
  | noRule load attach => simp [Call.function]
  | noCounter current => simp [Call.function]
  | exhausted current ge => simp [Call.function]

lemma TemplateFunction.isSome_table {f : TemplateFunction} {args : List String} {x : String}
    {log : List Event} (h : f.invoke args s = ⟨.ok x, t, log⟩) :
    (t.binding? 0 Tables.key).isSome ↔
      (s.binding? 0 Tables.key).isSome ∨ f = .createEmptyTables := by
  rcases f.invoke_cases args s with hinv | ⟨c, o, hc, heff, hinv⟩
  · rw [hinv] at h
    cases h
  · rw [hinv] at h
    obtain ⟨-, rfl, -⟩ := Outcome.mk.inj h
    rw [heff.isSome_table, Call.function_of_ofArgs? hc]

namespace Script

/-! ### A script -/

/-- The script sets up a table outside all nested scopes. -/
def SetsUpTable (script : Script) : Prop := ∃ args, Step.call .createEmptyTables args ∈ script

lemma setsUpTable_text_iff (x : String) (rest : List Step) :
    SetsUpTable (.text x :: rest) ↔ SetsUpTable rest := by
  simp [SetsUpTable]

lemma setsUpTable_scope_iff (inner rest : List Step) :
    SetsUpTable (.scope inner :: rest) ↔ SetsUpTable rest := by
  simp [SetsUpTable]

lemma setsUpTable_call_iff (f : TemplateFunction) (args : List String) (rest : List Step) :
    SetsUpTable (.call f args :: rest) ↔ f = .createEmptyTables ∨ SetsUpTable rest := by
  constructor
  · rintro ⟨args', hmem⟩
    rcases List.mem_cons.1 hmem with heq | hrest
    · exact .inl (Step.call.inj heq).1.symm
    · exact .inr ⟨args', hrest⟩
  · rintro (rfl | ⟨args', hrest⟩)
    · exact ⟨args, by simp⟩
    · exact ⟨args', by simp [hrest]⟩

/-- Behind a script that was rendered to its end, the innermost frame has a table exactly if it had one
before or if the script sets one up outside its nested scopes. -/
theorem isSome_table_texts (steps : List Step) {xs : List String}
    (h : (texts steps s).result = .ok xs) :
    ((texts steps s).scope.binding? 0 Tables.key).isSome ↔
      (s.binding? 0 Tables.key).isSome ∨ SetsUpTable steps := by
  induction steps using ind generalizing s xs with
  | nil => simp [texts, pure, Action.done, SetsUpTable]
  | text x rest ih =>
      rw [texts_text] at h ⊢
      obtain ⟨ys, hys, -⟩ := map_eq_ok_iff.1 h
      rw [setsUpTable_text_iff]
      exact ih hys
  | call f args rest ih =>
      rcases hinv : f.invoke args s with ⟨e | x, t, log⟩
      · rw [texts_call_of_error hinv] at h
        cases h
      · rw [texts_call_of_ok hinv] at h ⊢
        obtain ⟨ys, hys, -⟩ := map_eq_ok_iff.1 h
        rw [setsUpTable_call_iff, ← or_assoc, ← TemplateFunction.isSome_table hinv]
        exact ih hys
  | scope inner rest _ ih =>
      obtain ⟨t, hpop, -⟩ := exists_pop?_texts inner s
      cases hinner : (texts inner s.push).result with
      | error e =>
          rw [texts_scope_of_error hinner hpop] at h
          cases h
      | ok zs =>
          rw [texts_scope_of_ok hinner hpop] at h ⊢
          obtain ⟨ys, hys, -⟩ := map_eq_ok_iff.1 h
          -- the nested scope binds no key anew in the frame around it
          have hframe : (t.binding? 0 Tables.key).isSome = (s.binding? 0 Tables.key).isSome := by
            rw [Scope.binding?_of_pop? hpop, (kept_texts inner s.push).below]
            rfl
          rw [setsUpTable_scope_iff, ← hframe]
          exact ih hys

/-! ### The root frame -/

/-- With a single frame, a key means what that frame binds it to. -/
lemma get?_of_depth_eq_one (h : s.depth = 1) (key : String) : s.get? key = s.binding? 0 key := by
  obtain ⟨top, below⟩ := s
  obtain rfl : below = [] := by simpa [Scope.depth, Scope.frames] using h
  simp [Scope.get?, Scope.frames, Scope.visible?]

/-- Behind a script that was rendered to its end on an empty scope, a table is loaded exactly if the
script sets one up outside its nested scopes; otherwise its key is reported. -/
theorem load_behind_render {script : Script} {text : String}
    (h : (script.render .root).result = .ok text) :
    (¬ SetsUpTable script → (Tables.load (script.render .root).scope).result =
      .error (.uninitialized Tables.key)) ∧
    (SetsUpTable script → ∃ table, (Tables.load (script.render .root).scope).result = .ok table) := by
  obtain ⟨xs, hxs, -⟩ := map_eq_ok_iff.1 h
  have htable := isSome_table_texts script hxs
  have hget : (script.render .root).scope.get? Tables.key =
      (script.render .root).scope.binding? 0 Tables.key :=
    get?_of_depth_eq_one (depth_texts script .root) _
  have hroot : (Scope.root.binding? 0 Tables.key).isSome = false := rfl
  rw [hroot] at htable
  refine ⟨fun hnot => ?_, fun hsets => ?_⟩
  · apply Tables.load_of_none
    rw [hget, ← Option.not_isSome_iff_eq_none]
    exact fun hsome => hnot ((htable.1 hsome).resolve_left (by simp))
  · obtain ⟨v, hv⟩ := Option.isSome_iff_exists.1 (htable.2 (.inr hsets))
    obtain ⟨table, htable⟩ := (Scope.Reachable.render .root script).exists_table hv
    have hkey : (script.render .root).scope.get? Tables.key = some v := hget.trans hv
    refine ⟨table, ?_⟩
    rw [Tables.reads_load.result_eq, hkey]
    change Tables.decode v = _
    rw [Tables.decode, htable]
    rfl

/-- Printing the table at the end of a script adds the forms of the table that is loaded behind it. -/
theorem render_constructPeg {script : Script} {text : String} {table : RuleTable}
    (h : (script.render s).result = .ok text)
    (hload : (Tables.load (script.render s).scope).result = .ok table) :
    (render (script ++ [.call .constructPeg []]) s).result = .ok (text ++ table.forms) := by
  obtain ⟨xs, hxs, rfl⟩ := map_eq_ok_iff.1 h
  rcases hscript : texts script s with ⟨r, u, log⟩
  rw [hscript] at hxs
  obtain rfl : r = .ok xs := hxs
  have hu : (script.render s).scope = u := by rw [render_eq, hscript]
  rw [hu] at hload
  have hprint : (TemplateFunction.constructPeg.invoke [] u).result = .ok table.forms := by
    rw [TemplateFunction.result_constructPeg, hload]
    rfl
  rcases hinv : TemplateFunction.constructPeg.invoke [] u with ⟨r, u', log'⟩
  rw [hinv] at hprint
  obtain rfl : r = .ok table.forms := hprint
  have hlast : (texts [.call .constructPeg []] u).result = .ok [table.forms] := by
    rw [texts_call_of_ok hinv]
    rfl
  have htexts : (texts (script ++ [.call .constructPeg []]) s).result =
      .ok (xs ++ [table.forms]) := by
    rw [texts_append, Action.bind_of_ok hscript]
    exact map_eq_ok_iff.2 ⟨_, hlast, rfl⟩
  rw [render_eq, htexts]
  simp [Except.map]

end Script

end RuleScript
