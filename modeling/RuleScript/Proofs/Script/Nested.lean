import RuleScript.Proofs.Script.Induction
import RuleScript.Proofs.Template.SharedFrames

/-!
Nested scopes seen from outside: what a frame of its own does to a script, and what it keeps away
from it.

* `respects_texts`: a script comes to the same on scopes that share their inner frames over outer
  ones that cannot be told apart, as long as its own calls do;
* `render_scope`: a script in a frame of its own;
* `render_transparent`: a nested scope that sets nothing up itself might as well not be there;
* `render_isolated`: a nested scope that sets up both the table and the counter sees nothing of what
  is around it, and leaves no trace there.
-/

namespace RuleScript

open RuleScript.Json (Value)

variable {s t : Scope} {n : ℕ} {Q : List Bindings → List Bindings → Prop}

/-! ### Scripts over outer frames -/

/-- What comes to the same in one more shared frame comes to the same in a frame of its own. -/
lemma Action.Respects.inFrame {α : Type} {a : Action α}
    (h : a.Respects (Scope.Over Q (n + 1)))
    (hleave : ∀ s : Scope, ∃ t, (a s.push).scope.pop? = some t) :
    a.inFrame.Respects (Scope.Over Q n) := by
  intro s t hst
  obtain ⟨hresult, hscope⟩ := h hst.push
  obtain ⟨u, hu⟩ := hleave s
  obtain ⟨v, hv⟩ := hleave t
  rw [inFrame_of_pop? hu, inFrame_of_pop? hv]
  exact ⟨hresult, hscope.pop hu hv⟩

namespace Script

/-- Over outer frames that cannot be told apart a script comes to the same, if the calls among its
own steps do. Those of its nested scopes do anyway: what they bind anew they bind in a frame that is
shared. -/
theorem respects_texts (hQ : Scope.Footing Q) (steps : List Step) (n : ℕ)
    (hcalls : ∀ f args, .call f args ∈ steps → (f.invoke args).Respects (Scope.Over Q n)) :
    (texts steps).Respects (Scope.Over Q n) := by
  induction steps using ind generalizing n with
  | nil => exact Action.respects_pure _
  | text x rest ih =>
      have hrest := ih n fun f args hmem => hcalls f args (List.mem_cons_of_mem _ hmem)
      have hstep : (Step.text x).texts.Respects (Scope.Over Q n) :=
        (Action.respects_log _).bind fun _ => Action.respects_pure _
      exact hstep.bind fun _ => hrest.map _
  | call f args rest ih =>
      have hrest := ih n fun f args hmem => hcalls f args (List.mem_cons_of_mem _ hmem)
      have hstep : (Step.call f args).texts.Respects (Scope.Over Q n) :=
        (hcalls f args List.mem_cons_self).bind fun _ =>
          (Action.respects_log _).bind fun _ => Action.respects_pure _
      exact hstep.bind fun _ => hrest.map _
  | scope inner rest ihi ihr =>
      have hrest := ihr n fun f args hmem => hcalls f args (List.mem_cons_of_mem _ hmem)
      have hinner := ihi (n + 1) fun f args _ =>
        f.respects_invoke args (Scope.alike_over hQ _ _) fun _ _ _ v h => h.add _ v
      have hleave : ∀ s : Scope, ∃ t, (texts inner s.push).scope.pop? = some t := by
        intro s
        obtain ⟨t, ht, -⟩ := exists_pop?_texts inner s
        exact ⟨t, ht⟩
      have hstep : (Step.scope inner).texts.Respects (Scope.Over Q n) := hinner.inFrame hleave
      exact hstep.bind fun _ => hrest.map _

/-! ### A script in a frame of its own -/

/-- A nested scope by itself comes to what its steps come to, and leaves what they leave in the
frames below its own. -/
lemma render_scope {inner : List Step} (ht : (texts inner s.push).scope.pop? = some t) :
    (render [.scope inner] s).result = (render inner s.push).result ∧
      (render [.scope inner] s).scope = t := by
  rw [render_eq, render_eq]
  cases h : (texts inner s.push).result with
  | error e =>
      rw [texts_scope_of_error h ht]
      exact ⟨rfl, rfl⟩
  | ok xs =>
      have hrest : (texts [] t).result.map (xs ++ ·) = .ok xs := congrArg Except.ok xs.append_nil
      rw [texts_scope_of_ok h ht]
      dsimp only
      rw [hrest]
      exact ⟨rfl, rfl⟩

/-! ### Nested scopes that set nothing up -/

/-- The outer frames have an empty frame between them and the shared ones. -/
def Spaced (x y : List Bindings) : Prop := y = [] :: x

/-- An empty frame makes no difference. -/
lemma footing_spaced : Scope.Footing Spaced where
  visible? := by
    rintro x y c rfl
    rfl
  overwrite? := by
    rintro x y c value rfl
    show Option.Rel Spaced (Scope.overwrite? c.key value x)
      ((Scope.overwrite? c.key value x).map ([] :: ·))
    cases Scope.overwrite? c.key value x with
    | none => exact .none
    | some written => exact .some rfl

/-- **Nested scopes that set nothing up are transparent.** Where neither `createEmptyTables` nor
`resetVariables` is called by the steps of a nested scope themselves, though it may be in scopes
that are nested in it, the steps come to the same without the scope around them: they give the same
text or the same error, and leave the same scope. -/
theorem render_transparent (steps : List Step)
    (h : ∀ args, .call .createEmptyTables args ∉ steps ∧ .call .resetVariables args ∉ steps)
    (s : Scope) :
    (render [.scope steps] s).result = (render steps s).result ∧
      (render [.scope steps] s).scope = (render steps s).scope := by
  have hcalls : ∀ f args, .call f args ∈ steps →
      (f.invoke args).Respects (Scope.Over Spaced 0) := by
    intro f args hmem
    refine f.respects_invoke args (Scope.alike_over footing_spaced _ _) ?_
    intro hsetUp
    cases f with
    | createEmptyTables => exact absurd hmem (h args).1
    | resetVariables => exact absurd hmem (h args).2
    | addRule => cases hsetUp
    | addEmitter => cases hsetUp
    | constructPeg => cases hsetUp
    | genVar => cases hsetUp
  have hstart : Scope.Over Spaced 0 s s.push := .of_frames rfl
  obtain ⟨hresult, hscope⟩ := respects_texts footing_spaced steps 0 hcalls hstart
  -- what is left below the empty frame is what is left without it
  have hspaced : (texts steps s.push).scope.frames = [] :: (texts steps s).scope.frames :=
    hscope.frames
  obtain ⟨hrender, hleft⟩ := render_scope (Scope.pop?_of_frames_eq hspaced)
  refine ⟨?_, hleft⟩
  calc (render [.scope steps] s).result
      = (texts steps s.push).result.map String.join := by rw [hrender, render_eq]
    _ = (texts steps s).result.map String.join := by rw [hresult]
    _ = (render steps s).result := by rw [render_eq]

/-- A nested scope that takes names before and behind one with a counter of its own takes them from
the counter outside. -/
theorem render_transparent_around_reset :
    (render [.scope [.call .genVar [], .scope [.call .resetVariables [], .call .genVar []],
        .call .genVar []]] ⟨[], [[("variable", .natural 7)]]⟩).result = .ok "v7v0v8" ∧
      (render [.scope [.call .genVar [], .scope [.call .resetVariables [], .call .genVar []],
        .call .genVar []]] ⟨[], [[("variable", .natural 7)]]⟩).scope =
          ⟨[], [[("variable", .natural 9)]]⟩ := by
  obtain ⟨hresult, hscope⟩ := render_transparent
    [.call .genVar [], .scope [.call .resetVariables [], .call .genVar []], .call .genVar []]
    (by simp) ⟨[], [[("variable", .natural 7)]]⟩
  exact ⟨hresult.trans rfl, hscope.trans rfl⟩

/-! ### Nested scopes that set up both the table and the counter -/

/-- The outer frames begin with the same frame, which binds the keys of the table and of the
counter; what is behind it is as given. -/
def Walled (outer outer' x y : List Bindings) : Prop :=
  ∃ wall, x = wall :: outer ∧ y = wall :: outer' ∧
    ∀ c : Cell, (Entries.get? c.key wall).isSome

lemma isSome_get?_set {wall : Bindings} {key other : String}
    (h : (Entries.get? other wall).isSome) (value : Value) :
    (Entries.get? other (Entries.set key value wall)).isSome := by
  by_cases hkey : other = key
  · rw [hkey, Entries.get?_set_self]
    rfl
  · rw [Entries.get?_set_of_ne hkey]
    exact h

/-- Nothing behind the wall is found or written. -/
lemma footing_walled (outer outer' : List Bindings) : Scope.Footing (Walled outer outer') where
  visible? := by
    rintro x y c ⟨wall, rfl, rfl, hwall⟩
    obtain ⟨v, hv⟩ := Option.isSome_iff_exists.1 (hwall c)
    rw [Scope.visible?, Scope.visible?, hv]
    rfl
  overwrite? := by
    rintro x y c value ⟨wall, rfl, rfl, hwall⟩
    rw [Scope.overwrite?, Scope.overwrite?, if_pos (hwall c), if_pos (hwall c)]
    exact .some ⟨_, rfl, rfl, fun other => isSome_get?_set (hwall other) value⟩

/-- Binding a key anew in the wall leaves it a wall. -/
lemma over_walled_add {outer outer' : List Bindings} (key : String) (value : Value) {u v : Scope}
    (h : Scope.Over (Walled outer outer') 0 u v) :
    Scope.Over (Walled outer outer') 0 (u.add key value) (v.add key value) := by
  obtain ⟨wall, hu, hv, hwall⟩ := h.frames
  obtain ⟨rfl, hubelow⟩ := List.cons.inj hu
  obtain ⟨hvtop, hvbelow⟩ := List.cons.inj hv
  refine .of_frames ⟨Entries.set key value u.top, ?_, ?_, ?_⟩
  · rw [← hubelow]
    rfl
  · rw [← hvbelow, ← hvtop]
    rfl
  · intro c
    exact isSome_get?_set (hwall c) value

/-- The steps behind the two set-ups. -/
def initialized (rest : List Step) : List Step :=
  .call .createEmptyTables [] :: .call .resetVariables [] :: rest

/-- The scope with a new table and a new counter in its innermost frame. -/
def freshlySetUp (s : Scope) : Scope :=
  (s.add Tables.key RuleTable.empty.toValue).add Counter.key (.natural 0)

/-- Steps behind the two set-ups run on a scope with a new table and a new counter. -/
lemma texts_initialized (rest : List Step) (s : Scope) :
    (texts (initialized rest) s).result =
        (texts rest (freshlySetUp s)).result.map ("" :: "" :: ·) ∧
      (texts (initialized rest) s).scope = (texts rest (freshlySetUp s)).scope := by
  have hcreate : TemplateFunction.createEmptyTables.invoke [] s =
      ⟨.ok "", s.add Tables.key RuleTable.empty.toValue, [.calling .createEmptyTables []]⟩ := rfl
  have hreset : TemplateFunction.resetVariables.invoke []
      (s.add Tables.key RuleTable.empty.toValue) =
        ⟨.ok "", freshlySetUp s, [.calling .resetVariables []]⟩ := rfl
  rw [initialized, texts_call_of_ok hcreate, texts_call_of_ok hreset]
  refine ⟨?_, rfl⟩
  cases (texts rest (freshlySetUp s)).result <;> rfl

/-- In a new frame the two set-ups build a wall. -/
lemma over_walled_freshlySetUp (s t : Scope) :
    Scope.Over (Walled s.frames t.frames) 0 (freshlySetUp s.push) (freshlySetUp t.push) := by
  refine .of_frames ⟨_, rfl, rfl, ?_⟩
  intro c
  cases c <;> rfl

/-- **Nested scopes that set up both the table and the counter are isolated.** On any two scopes, of
whatever depth and with whatever bindings, a nested scope that begins with `createEmptyTables` and
`resetVariables` gives the same text or the same error, and it leaves each of them as it was. -/
theorem render_isolated (rest : List Step) (s t : Scope) :
    (render [.scope (initialized rest)] s).result = (render [.scope (initialized rest)] t).result ∧
      (render [.scope (initialized rest)] s).scope = s ∧
      (render [.scope (initialized rest)] t).scope = t := by
  have hQ := footing_walled s.frames t.frames
  have hcalls : ∀ f args, .call f args ∈ rest →
      (f.invoke args).Respects (Scope.Over (Walled s.frames t.frames) 0) := by
    intro f args _
    exact f.respects_invoke args (Scope.alike_over hQ _ _) fun _ _ _ _ h => over_walled_add _ _ h
  obtain ⟨hresult, hscope⟩ := respects_texts hQ rest 0 hcalls (over_walled_freshlySetUp s t)
  obtain ⟨hresultS, hscopeS⟩ := texts_initialized rest s.push
  obtain ⟨hresultT, hscopeT⟩ := texts_initialized rest t.push
  -- behind the wall both scopes are what they were
  obtain ⟨wall, hs, ht, -⟩ := hscope.frames
  rw [← hscopeS] at hs
  rw [← hscopeT] at ht
  obtain ⟨hrenderS, hleftS⟩ := render_scope (Scope.pop?_of_frames_eq hs)
  obtain ⟨hrenderT, hleftT⟩ := render_scope (Scope.pop?_of_frames_eq ht)
  refine ⟨?_, hleftS, hleftT⟩
  calc (render [.scope (initialized rest)] s).result
      = (texts (initialized rest) s.push).result.map String.join := by rw [hrenderS, render_eq]
    _ = (texts (initialized rest) t.push).result.map String.join := by
        rw [hresultS, hresultT, hresult]
    _ = (render [.scope (initialized rest)] t).result := by rw [hrenderT, render_eq]

end Script

end RuleScript
