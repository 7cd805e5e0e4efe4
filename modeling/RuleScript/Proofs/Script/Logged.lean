import RuleScript.Proofs.Script.Induction
import RuleScript.Proofs.Template.LogLines

/-!
The lines that are logged while a script is rendered.

* `Nested`: lines of which those on scopes are properly nested groups, from a given depth on;
* `Deed`, `deeds`: what a rendering does on a scope, one thing after another: copying a text, calling
  a function on the scope as it is by then, entering and leaving a nested scope;
* `Deed.Logs`: the lines that a deed is logged with; a change to the table is among them exactly where
  the call that makes it succeeds;
* `render_log`: the lines of a rendering are nested, tell its deeds one after another, and show its
  text.
-/

namespace RuleScript

variable {s t : Scope} {f : TemplateFunction} {args : List String}

/-! ### Groups of lines -/

/-- The lines on scopes are properly nested groups, each opened and closed at the depth behind the one
that it stands at; other lines stand anywhere but between two lines that open or close a group. -/
inductive Nested : ℕ → List String → Prop
  | nil {d : ℕ} : Nested d []
  | line {d : ℕ} {x : String} {rest : List String} (other : ¬ Line.OnScope x)
      (behind : Nested d rest) : Nested d (x :: rest)
  | group {d : ℕ} {inside rest : List String} (within : Nested (d + 1) inside)
      (behind : Nested d rest) :
    Nested d (Line.entered (d + 1) :: Line.entering (d + 1) ::
      (inside ++ Line.leaving (d + 1) :: Line.left d :: rest))

namespace Nested

variable {d : ℕ} {first rest : List String}

lemma append (hfirst : Nested d first) (hrest : Nested d rest) : Nested d (first ++ rest) := by
  induction hfirst with
  | nil => exact hrest
  | line other _ ih => exact .line other (ih hrest)
  | @group d inside later within _ _ ih =>
      have hgroup := Nested.group within (ih hrest)
      simpa using hgroup

lemma of_forall (h : ∀ x ∈ first, ¬ Line.OnScope x) : Nested d first := by
  induction first with
  | nil => exact .nil
  | cons x first ih => exact .line (h x (by simp)) (ih fun y hy => h y (by simp [hy]))

end Nested

/-- The lines around what is logged in a frame of its own. -/
lemma map_line_frameLog (hdepth : t.depth = s.depth) (inside : List Event) :
    (frameLog s t inside).map Event.line =
      Line.entered (s.depth + 1) :: Line.entering (s.depth + 1) ::
        (inside.map Event.line ++ [Line.leaving (s.depth + 1), Line.left s.depth]) := by
  simp only [frameLog, hdepth, List.map_cons, List.map_append, List.map_nil, Event.line_eq]

/-! ### Deeds -/

/-- Something that is done while a script is rendered. -/
inductive Deed where
  /-- A text is copied. -/
  | text (x : String)
  /-- A function is called on a scope. -/
  | call (function : TemplateFunction) (args : List String) (before : Scope)
  /-- A nested scope is entered, and there are now `depth` frames. -/
  | enter (depth : ℕ)
  /-- A nested scope is left, and there are now `depth` frames. -/
  | leave (depth : ℕ)

mutual

/-- What a step does on a scope. -/
def Step.deeds : Step → Scope → List Deed
  | .text x, _ => [.text x]
  | .call f args, s => [.call f args s]
  | .scope steps, s =>
    .enter (s.depth + 1) :: (Script.deeds steps s.push ++ [.leave s.depth])

/-- What some steps do on a scope: each does it on the scope that the one before has left, and none
does anything behind one that fails. -/
def Script.deeds : List Step → Scope → List Deed
  | [], _ => []
  | step :: rest, s =>
    step.deeds s ++
      match (step.texts s).result with
      | .ok _ => Script.deeds rest (step.texts s).scope
      | .error _ => []

end

/-- The lines that a deed is logged with. A call with arguments that do not fit is not logged at all,
and one that fails only as it begins. A call that succeeds is logged with its text; between the two
lines a rule that was added is logged with the number of rules in the table that is visible behind the
call, and an emitter that was attached with the name that it was attached to. -/
inductive Deed.Logs : Deed → List String → Prop
  | text (x : String) : Logs (.text x) [Line.emitting x]
  | enter (depth : ℕ) : Logs (.enter depth) [Line.entered depth, Line.entering depth]
  | leave (depth : ℕ) : Logs (.leave depth) [Line.leaving (depth + 1), Line.left depth]
  | refused {f : TemplateFunction} {args : List String} {s : Scope}
      (length_ne : args.length ≠ f.arity) : Logs (.call f args s) []
  | failed {f : TemplateFunction} {args : List String} {s : Scope} {e : TemplateError}
      (length_eq : args.length = f.arity) (fails : (f.invoke args s).result = .error e) :
    Logs (.call f args s) [Line.calling f args]
  | ruleAdded {name pattern x : String} {s : Scope} {t : RuleTable}
      (succeeds : (TemplateFunction.addRule.invoke [name, pattern] s).result = .ok x)
      (visible : (Tables.load (TemplateFunction.addRule.invoke [name, pattern] s).scope).result =
        .ok t) :
    Logs (.call .addRule [name, pattern] s)
      [Line.calling .addRule [name, pattern], Line.addedRule name t.size, Line.returned .addRule x]
  | emitterAttached {name emitter x : String} {s : Scope}
      (succeeds : (TemplateFunction.addEmitter.invoke [name, emitter] s).result = .ok x) :
    Logs (.call .addEmitter [name, emitter] s)
      [Line.calling .addEmitter [name, emitter], Line.attachedEmitter name,
        Line.returned .addEmitter x]
  | succeeded {f : TemplateFunction} {args : List String} {s : Scope} {x : String}
      (noRule : f ≠ .addRule) (noEmitter : f ≠ .addEmitter)
      (succeeds : (f.invoke args s).result = .ok x) :
    Logs (.call f args s) [Line.calling f args, Line.returned f x]

/-- Lines tell some deeds: they are made of the lines of each, in their order. -/
def Tells (lines : List String) (deeds : List Deed) : Prop :=
  ∃ groups : List (List String), List.Forall₂ Deed.Logs deeds groups ∧ lines = groups.flatten

namespace Tells

lemma nil : Tells [] [] := ⟨[], .nil, rfl⟩

lemma single {deed : Deed} {group : List String} (h : deed.Logs group) : Tells group [deed] :=
  ⟨[group], .cons h .nil, by simp⟩

lemma append {first rest : List String} {deeds later : List Deed} (hfirst : Tells first deeds)
    (hrest : Tells rest later) : Tells (first ++ rest) (deeds ++ later) := by
  obtain ⟨groups, hgroups, rfl⟩ := hfirst
  obtain ⟨groups', hgroups', rfl⟩ := hrest
  exact ⟨groups ++ groups', List.rel_append hgroups hgroups', by simp⟩

end Tells

/-! ### The lines of a call -/

/-- A call that fails logs nothing of what it was to do. -/
lemma Call.Effect.log_of_error {c : Call} {o : Outcome String} {e : TemplateError}
    (h : Call.Effect s c o) (he : o.result = .error e) : o.log = [] := by
  cases h <;> first | rfl | cases he

/-- A call that succeeds logs what it did to the table, if it did anything. -/
lemma Call.Effect.logs {c : Call} {o : Outcome String} {x : String} (h : Call.Effect s c o)
    (ho : o.result = .ok x)
    (hinv : c.function.invoke c.args s =
      ⟨o.result, o.scope, .calling c.function c.args :: o.log⟩) :
    (Deed.call c.function c.args s).Logs
      (Line.calling c.function c.args :: (o.log.map Event.line ++ [Line.returned c.function x])) := by
  have hresult : (c.function.invoke c.args s).result = .ok x := by rw [hinv, ho]
  cases h with
  | tableCreated => exact .succeeded (by decide) (by decide) hresult
  | counterReset => exact .succeeded (by decide) (by decide) hresult
  | @ruleAdded name pattern t u load store =>
      have hvisible : (Tables.load (TemplateFunction.addRule.invoke [name, pattern] s).scope).result =
          .ok (t.withRule name pattern) := by
        have hscope := congrArg Outcome.scope hinv
        rw [Call.function, Call.args] at hscope
        rw [hscope, Tables.load_of_modify? store]
      simp only [List.map_cons, List.map_nil, Event.line_eq]
      rw [← RuleTable.size_withRule t name pattern]
      exact .ruleAdded hresult hvisible
  | emitterAttached load attach store =>
      simp only [List.map_cons, List.map_nil, Event.line_eq]
      exact .emitterAttached hresult
  | formsPrinted load => exact .succeeded (by decide) (by decide) hresult
  | nameTaken current lt store => exact .succeeded (by decide) (by decide) hresult
  | noTable reads load => cases ho
  | noRule load attach => cases ho
  | noCounter current => cases ho
  | exhausted current ge => cases ho

namespace TemplateFunction

variable {log : List Event}

/-- A call that fails is told by its lines. -/
lemma logs_of_error {e : TemplateError} (h : f.invoke args s = ⟨.error e, t, log⟩) :
    (Deed.call f args s).Logs (log.map Event.line) := by
  have hresult : (f.invoke args s).result = .error e := by rw [h]
  cases hargs : Call.ofArgs? f args with
  | none =>
      have hlog := congrArg Outcome.log ((invoke_of_not_fit hargs s).symm.trans h)
      obtain rfl : [] = log := hlog
      refine .refused fun hlength => ?_
      rw [← Call.ofArgs?_isSome_iff, hargs] at hlength
      cases hlength
  | some c =>
      have hinv := (invoke_of_ofArgs? hargs s).symm.trans h
      have hnothing := (c.effect s).log_of_error (congrArg Outcome.result hinv)
      have hlog := congrArg Outcome.log hinv
      rw [hnothing] at hlog
      obtain rfl : [.calling f args] = log := hlog
      rw [List.map_singleton, Event.line_eq]
      refine .failed ?_ hresult
      rw [← Call.ofArgs?_isSome_iff, hargs]
      rfl

/-- A call that succeeds is told by its lines and the line with its text. -/
lemma logs_of_ok {x : String} (h : f.invoke args s = ⟨.ok x, t, log⟩) :
    (Deed.call f args s).Logs ((log ++ [Event.returned f x]).map Event.line) := by
  cases hargs : Call.ofArgs? f args with
  | none =>
      have hresult := congrArg Outcome.result ((invoke_of_not_fit hargs s).symm.trans h)
      cases hresult
  | some c =>
      obtain rfl := Call.function_of_ofArgs? hargs
      obtain rfl := Call.args_of_ofArgs? hargs
      have hinv := invoke_of_ofArgs? hargs s
      have hrun := hinv.symm.trans h
      have hlog := congrArg Outcome.log hrun
      obtain rfl : .calling c.function c.args :: (c.run s).log = log := hlog
      have hlogs := (c.effect s).logs (congrArg Outcome.result hrun) hinv
      simpa only [List.cons_append, List.map_cons, List.map_append, List.map_nil, Event.line_eq]
        using hlogs

end TemplateFunction

namespace Deed.Logs

open Line

variable {group : List String}

/-- The lines of a call are on no scope. -/
lemma not_onScope_of_call (h : (Deed.call f args s).Logs group) : ∀ x ∈ group, ¬ OnScope x := by
  cases h <;> simp

/-- A rule that was added is logged exactly where the call that adds it succeeds, with the size that
the visible table has behind the call. -/
lemma addedRule_mem_iff (h : (Deed.call f args s).Logs group) (name : String) (size : ℕ) :
    addedRule name size ∈ group ↔ ∃ (pattern x : String) (t : RuleTable), f = .addRule ∧
      args = [name, pattern] ∧ (f.invoke args s).result = .ok x ∧
        (Tables.load (f.invoke args s).scope).result = .ok t ∧ t.size = size := by
  constructor
  · intro hmem
    cases h with
    | @ruleAdded _ pattern x _ t succeeds visible =>
        simp only [List.mem_cons, List.not_mem_nil, addedRule_ne_calling, addedRule_ne_returned,
          addedRule_inj, or_false, false_or] at hmem
        obtain ⟨rfl, rfl⟩ := hmem
        exact ⟨pattern, x, t, rfl, rfl, succeeds, visible, rfl⟩
    | refused => simp at hmem
    | failed => simp at hmem
    | emitterAttached => simp at hmem
    | succeeded => simp at hmem
  · rintro ⟨pattern, x, t, rfl, rfl, hx, ht, rfl⟩
    cases h with
    | refused length_ne => exact absurd rfl length_ne
    | failed length_eq fails => exact absurd (fails.symm.trans hx) (by simp)
    | ruleAdded succeeds visible =>
        obtain rfl := Except.ok.inj (visible.symm.trans ht)
        simp
    | succeeded noRule => exact absurd rfl noRule

/-- An emitter that was attached is logged exactly where the call that attaches it succeeds. -/
lemma attachedEmitter_mem_iff (h : (Deed.call f args s).Logs group) (name : String) :
    attachedEmitter name ∈ group ↔ ∃ emitter x : String, f = .addEmitter ∧
      args = [name, emitter] ∧ (f.invoke args s).result = .ok x := by
  constructor
  · intro hmem
    cases h with
    | @emitterAttached _ emitter x _ succeeds =>
        simp only [List.mem_cons, List.not_mem_nil, attachedEmitter_ne_calling,
          attachedEmitter_ne_returned, attachedEmitter_inj, or_false, false_or] at hmem
        obtain rfl := hmem
        exact ⟨emitter, x, rfl, rfl, succeeds⟩
    | refused => simp at hmem
    | failed => simp at hmem
    | ruleAdded => simp at hmem
    | succeeded => simp at hmem
  · rintro ⟨emitter, x, rfl, rfl, hx⟩
    cases h with
    | refused length_ne => exact absurd rfl length_ne
    | failed length_eq fails => exact absurd (fails.symm.trans hx) (by simp)
    | emitterAttached succeeds => simp
    | succeeded noRule noEmitter => exact absurd rfl noEmitter

/-- The lines of a call that succeeds show what it puts out. -/
lemma output_of_call {x : String} (h : (Deed.call f args s).Logs group)
    (hx : (f.invoke args s).result = .ok x) : group.filterMap output? = [x] := by
  cases h with
  | refused length_ne =>
      have hnot : Call.ofArgs? f args = none := by
        rw [← Option.not_isSome_iff_eq_none, Call.ofArgs?_isSome_iff]
        exact length_ne
      rw [TemplateFunction.invoke_of_not_fit hnot] at hx
      cases hx
  | failed length_eq fails =>
      rw [fails] at hx
      cases hx
  | ruleAdded succeeds visible =>
      obtain rfl := Except.ok.inj (succeeds.symm.trans hx)
      simp
  | emitterAttached succeeds =>
      obtain rfl := Except.ok.inj (succeeds.symm.trans hx)
      simp
  | succeeded noRule noEmitter succeeds =>
      obtain rfl := Except.ok.inj (succeeds.symm.trans hx)
      simp

end Deed.Logs

/-! ### The lines of a script -/

namespace Script

/-- The lines that are logged while a script is rendered. -/
def lines (script : Script) (s : Scope) : List String := (script.render s).log.map Event.line

/-- What a script does behind its first step. -/
lemma deeds_cons_of_ok {first : Step} {xs : List String} {log : List Event}
    (h : first.texts s = ⟨.ok xs, t, log⟩) (rest : List Step) :
    deeds (first :: rest) s = first.deeds s ++ deeds rest t := by
  rw [deeds, h]

lemma deeds_cons_of_error {first : Step} {e : TemplateError} {log : List Event}
    (h : first.texts s = ⟨.error e, t, log⟩) (rest : List Step) :
    deeds (first :: rest) s = first.deeds s := by
  rw [deeds, h, List.append_nil]

/-- What is logged around nested lines is nested. -/
lemma nested_frameLog (hdepth : t.depth = s.depth) {inside : List Event}
    (h : Nested (s.depth + 1) (inside.map Event.line)) :
    Nested s.depth ((frameLog s t inside).map Event.line) := by
  rw [map_line_frameLog hdepth]
  exact .group h .nil

/-- A nested scope is told by the lines around those that tell its steps. -/
lemma tells_frameLog (hdepth : t.depth = s.depth) {inside : List Event} {inner : List Step}
    (h : Tells (inside.map Event.line) (deeds inner s.push)) :
    Tells ((frameLog s t inside).map Event.line) ((Step.scope inner).deeds s) := by
  have hleave := h.append (.single (.leave s.depth))
  have hscope := (Tells.single (.enter (s.depth + 1))).append hleave
  rw [map_line_frameLog hdepth, Step.deeds]
  exact hscope

/-- The lines of a script tell what it does. -/
theorem tells_texts (steps : List Step) (s : Scope) :
    Tells ((texts steps s).log.map Event.line) (deeds steps s) := by
  induction steps using ind generalizing s with
  | nil =>
      rw [deeds]
      exact .nil
  | text x rest ih =>
      have hfirst : (Step.text x).texts s = ⟨.ok [x], s, [.emitting x]⟩ := rfl
      rw [texts_cons_of_ok hfirst, deeds_cons_of_ok hfirst, Step.deeds, List.map_append,
        List.map_singleton, Event.line_eq]
      exact (Tells.single (.text x)).append (ih s)
  | call f args rest ih =>
      rcases hinv : f.invoke args s with ⟨e | x, t, log⟩
      · have hfirst : (Step.call f args).texts s = ⟨.error e, t, log⟩ := Action.bind_of_error hinv
        rw [texts_call_of_error hinv, deeds_cons_of_error hfirst, Step.deeds]
        exact .single (TemplateFunction.logs_of_error hinv)
      · have hfirst : (Step.call f args).texts s = ⟨.ok [x], t, log ++ [.returned f x]⟩ :=
          Action.bind_of_ok hinv
        rw [texts_cons_of_ok hfirst, deeds_cons_of_ok hfirst, Step.deeds, List.map_append]
        exact (Tells.single (TemplateFunction.logs_of_ok hinv)).append (ih t)
  | scope inner rest ihinner ihrest =>
      obtain ⟨t, ht, hdepth⟩ := exists_pop?_texts inner s
      have hscope := tells_frameLog hdepth (ihinner s.push)
      have hfirst : (Step.scope inner).texts s =
          ⟨(texts inner s.push).result, t, frameLog s t (texts inner s.push).log⟩ :=
        Action.inFrame_of_pop? ht
      cases hinner : (texts inner s.push).result with
      | error e =>
          rw [hinner] at hfirst
          rw [texts_scope_of_error hinner ht, deeds_cons_of_error hfirst]
          exact hscope
      | ok xs =>
          rw [hinner] at hfirst
          rw [texts_scope_of_ok hinner ht, deeds_cons_of_ok hfirst, List.map_append]
          exact hscope.append (ihrest t)

/-- The lines of a script are nested, from the depth of the scope that it starts on. -/
theorem nested_texts (steps : List Step) (s : Scope) :
    Nested s.depth ((texts steps s).log.map Event.line) := by
  induction steps using ind generalizing s with
  | nil => exact .nil
  | text x rest ih =>
      rw [texts_text, List.map_cons, Event.line_eq]
      exact .line (Line.not_onScope_emitting x) (ih s)
  | call f args rest ih =>
      have hdepth := f.depth_invoke args s
      rcases hinv : f.invoke args s with ⟨e | x, t, log⟩
      · rw [texts_call_of_error hinv]
        exact .of_forall (TemplateFunction.logs_of_error hinv).not_onScope_of_call
      · rw [hinv] at hdepth
        have hfirst : (Step.call f args).texts s = ⟨.ok [x], t, log ++ [.returned f x]⟩ :=
          Action.bind_of_ok hinv
        have hrest := ih t
        rw [texts_cons_of_ok hfirst, List.map_append]
        rw [hdepth] at hrest
        exact (Nested.of_forall (TemplateFunction.logs_of_ok hinv).not_onScope_of_call).append hrest
  | scope inner rest ihinner ihrest =>
      obtain ⟨t, ht, hdepth⟩ := exists_pop?_texts inner s
      have hscope := nested_frameLog hdepth (ihinner s.push)
      cases hinner : (texts inner s.push).result with
      | error e =>
          rw [texts_scope_of_error hinner ht]
          exact hscope
      | ok xs =>
          have hrest := ihrest t
          rw [hdepth] at hrest
          rw [texts_scope_of_ok hinner ht, List.map_append]
          exact hscope.append hrest

/-- The lines of a script that runs to its end show what the script puts out. -/
theorem output_texts {steps : List Step} {xs : List String}
    (h : (texts steps s).result = .ok xs) :
    ((texts steps s).log.map Event.line).filterMap Line.output? = xs := by
  induction steps using ind generalizing s xs with
  | nil =>
      obtain rfl := Except.ok.inj h
      rfl
  | text x rest ih =>
      rw [texts_text] at h ⊢
      obtain ⟨ys, hys, rfl⟩ := map_eq_ok_iff.1 h
      rw [List.map_cons, Event.line_eq, List.filterMap_cons_some (Line.output?_emitting x), ih hys]
  | call f args rest ih =>
      rcases hinv : f.invoke args s with ⟨e | x, t, log⟩
      · rw [texts_call_of_error hinv] at h
        cases h
      · have hfirst : (Step.call f args).texts s = ⟨.ok [x], t, log ++ [.returned f x]⟩ :=
          Action.bind_of_ok hinv
        have hx : (f.invoke args s).result = .ok x := by rw [hinv]
        rw [texts_cons_of_ok hfirst] at h ⊢
        obtain ⟨ys, hys, rfl⟩ := map_eq_ok_iff.1 h
        rw [List.map_append, List.filterMap_append, ih hys,
          (TemplateFunction.logs_of_ok hinv).output_of_call hx]
  | scope inner rest ihinner ihrest =>
      obtain ⟨t, ht, hdepth⟩ := exists_pop?_texts inner s
      cases hinner : (texts inner s.push).result with
      | error e =>
          rw [texts_scope_of_error hinner ht] at h
          cases h
      | ok zs =>
          rw [texts_scope_of_ok hinner ht] at h ⊢
          obtain ⟨ys, hys, rfl⟩ := map_eq_ok_iff.1 h
          -- the lines around the nested scope show nothing
          have hscope : ((frameLog s t (texts inner s.push).log).map Event.line).filterMap
              Line.output? = zs := by
            rw [map_line_frameLog hdepth]
            simp [ihinner hinner]
          rw [List.map_append, List.filterMap_append, hscope, ihrest hys]

/-- **The lines of a rendering are faithful**, whether the rendering ends or fails. Those on scopes
are properly nested groups, all of them closed, from the depth of the scope that it starts on. One
after another they tell what the script does: among the lines of a call there is one on a rule that
was added or an emitter that was attached exactly where the call for it succeeds, the rule with the
size that the visible table then has. And where the rendering ends, the texts that the lines show, put
together, are the text that it gives. -/
theorem render_log (script : Script) (s : Scope) :
    Nested s.depth (script.lines s) ∧
    Tells (script.lines s) (deeds script s) ∧
    (∀ (f : TemplateFunction) (args : List String) (before : Scope) (group : List String),
      (Deed.call f args before).Logs group →
        (∀ name size, Line.addedRule name size ∈ group ↔ ∃ (pattern x : String) (t : RuleTable),
          f = .addRule ∧ args = [name, pattern] ∧ (f.invoke args before).result = .ok x ∧
            (Tables.load (f.invoke args before).scope).result = .ok t ∧ t.size = size) ∧
        (∀ name, Line.attachedEmitter name ∈ group ↔ ∃ emitter x : String,
          f = .addEmitter ∧ args = [name, emitter] ∧ (f.invoke args before).result = .ok x)) ∧
    ∀ text, (script.render s).result = .ok text →
      String.join ((script.lines s).filterMap Line.output?) = text := by
  refine ⟨nested_texts script s, tells_texts script s, ?_, ?_⟩
  · intro f args before group hgroup
    exact ⟨hgroup.addedRule_mem_iff, hgroup.attachedEmitter_mem_iff⟩
  · intro text htext
    obtain ⟨xs, hxs, rfl⟩ := map_eq_ok_iff.1 htext
    exact congrArg String.join (output_texts hxs)

/-- A rule is added in a nested scope, to the table outside of it. -/
theorem render_log_nested :
    ∃ lines, Script.lines [.call .createEmptyTables [], .scope [.text "a",
        .call .addRule ["A", "p"], .call .constructPeg []]] .root = lines ∧
      lines = ["DEBUG pegrules::functions: Calling createEmptyTables([])",
        "TRACE pegrules::render: createEmptyTables returned \"\"",
        "TRACE pegrules::scope: Entered scope at depth 2",
        "DEBUG pegrules::render: Entering scope at depth 2",
        "TRACE pegrules::render: Emitting \"a\"",
        "DEBUG pegrules::functions: Calling addRule([\"A\", \"p\"])",
        "DEBUG pegrules::grammar::table: Added rule A (now 1 rules)",
        "TRACE pegrules::render: addRule returned \"\"",
        "DEBUG pegrules::functions: Calling constructpeg([])",
        "TRACE pegrules::render: constructpeg returned \"\\n(define-peg A p undefined)\"",
        "DEBUG pegrules::render: Leaving scope at depth 2",
        "TRACE pegrules::scope: Left scope, now at depth 1"] ∧
      Nested 1 lines ∧
      String.join (lines.filterMap Line.output?) = "a\n(define-peg A p undefined)" ∧
      ∃ group, (Deed.call .addRule ["A", "p"] (Scope.root.add "rules" (.array [])).push).Logs group ∧
        Line.addedRule "A" 1 ∈ group := by
  obtain ⟨hnested, -, hcalls, htext⟩ := render_log [.call .createEmptyTables [], .scope [.text "a",
    .call .addRule ["A", "p"], .call .constructPeg []]] .root
  have hlogs : (Deed.call .addRule ["A", "p"] (Scope.root.add "rules" (.array [])).push).Logs
      [Line.calling .addRule ["A", "p"], Line.addedRule "A" 1, Line.returned .addRule ""] :=
    .ruleAdded (t := ⟨[.plain "A" "p"]⟩) rfl rfl
  exact ⟨_, rfl, by decide +kernel, hnested, htext _ rfl, _, hlogs,
    ((hcalls _ _ _ _ hlogs).1 "A" 1).2 ⟨"p", "", ⟨[.plain "A" "p"]⟩, rfl, rfl, rfl, rfl, rfl⟩⟩

/-- A call that fails in a nested scope. -/
example : Script.lines [.scope [.call .genVar []]] .root =
    ["TRACE pegrules::scope: Entered scope at depth 2",
      "DEBUG pegrules::render: Entering scope at depth 2",
      "DEBUG pegrules::functions: Calling genvar([])",
      "DEBUG pegrules::render: Leaving scope at depth 2",
      "TRACE pegrules::scope: Left scope, now at depth 1"] := rfl

end Script

end RuleScript
