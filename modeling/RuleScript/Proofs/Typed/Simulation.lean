import Mathlib.Data.List.Forall2
import RuleScript.Proofs.Script.Induction
import RuleScript.Proofs.Typed.Interpreter

/-!
Scripts on scopes behave as scripts on typed states do, although a scope keeps every table and every
counter as a JSON value that is decoded and encoded again by each call.

* `Related`: frame by frame, a scope binds the values of what the typed state keeps, and nothing
  else; `Puts` and `Gives` say of writing and reading on one side what they are on the other;
* `Related.invoke`, `Related.texts`: a call and a script on related states come to the same and
  leave related states, failures included;
* `Scope.Reachable`: what calls, entering and leaving make of the empty scope;
* `simulation`: the scripts rendered one after another on an empty scope.
-/

namespace RuleScript.Typed

open RuleScript.Json (Value)

variable {s u : Scope} {t : State} {key : String} {v : Value}

/-! ### Frames -/

/-- The value that a frame keeps under a key. -/
def Frame.value? (f : Frame) (key : String) : Option Value :=
  if key = Tables.key then f.table.map RuleTable.toValue
  else if key = Counter.key then f.counter.map Value.natural
  else none

/-- The bindings are the values of what the frame keeps, and nothing else. -/
def Shows (bindings : Bindings) (f : Frame) : Prop :=
  ∀ key, Entries.get? key bindings = f.value? key

lemma shows_empty : Shows [] .empty := by
  intro key
  simp [Frame.value?, Frame.empty]

lemma counterKey_ne : Counter.key ≠ Tables.key := by decide

@[simp] lemma value?_tables (f : Frame) :
    f.value? Tables.key = f.table.map RuleTable.toValue := by
  simp [Frame.value?]

@[simp] lemma value?_counter (f : Frame) :
    f.value? Counter.key = f.counter.map Value.natural := by
  simp [Frame.value?, counterKey_ne]

/-- The change of a frame puts a value under a key and touches nothing else. -/
def Puts (change : Frame → Frame) (key : String) (v : Value) : Prop :=
  ∀ f other, (change f).value? other = if other = key then some v else f.value? other

lemma puts_withTable (table : RuleTable) :
    Puts (.withTable table) Tables.key table.toValue := by
  intro f other
  by_cases h : other = Tables.key <;> simp [Frame.value?, h, Frame.withTable]

lemma puts_withCounter (n : UInt64) : Puts (.withCounter n) Counter.key (.natural n) := by
  intro f other
  by_cases h : other = Counter.key
  · simp [Frame.value?, h, counterKey_ne, Frame.withCounter]
  · simp [Frame.value?, h, Frame.withCounter]

lemma Shows.set {bindings : Bindings} {f : Frame} {change : Frame → Frame}
    (h : Shows bindings f) (hputs : Puts change key v) :
    Shows (Entries.set key v bindings) (change f) := by
  intro other
  rw [hputs]
  by_cases hkey : other = key
  · subst hkey
    rw [Entries.get?_set_self, if_pos rfl]
  · rw [Entries.get?_set_of_ne hkey, if_neg hkey, h other]

/-! ### Stacks of frames -/

/-- A nearest value is found in the bindings where it is found in the frames. -/
lemma visible?_eq_findSome? {frames : List Bindings} {typed : List Frame}
    (h : List.Forall₂ Shows frames typed) (key : String) :
    Scope.visible? key frames = typed.findSome? fun f => f.value? key := by
  induction h with
  | nil => rfl
  | @cons bindings f outer typed hf _ ih =>
      rw [Scope.visible?, hf key, ih]
      cases hv : f.value? key <;> simp [hv]

/-- A write to the nearest binding is a change of the nearest frame that has what is changed. -/
lemma forall₂_of_overwrite? {has : Frame → Bool} {change : Frame → Frame}
    {before after : List Bindings} {typed : List Frame} (h : List.Forall₂ Shows before typed)
    (hhas : ∀ f : Frame, has f = (f.value? key).isSome) (hputs : Puts change key v)
    (hwrite : Scope.overwrite? key v before = some after) :
    List.Forall₂ Shows after (changeFirst has change typed) := by
  induction h generalizing after with
  | nil => simp [Scope.overwrite?] at hwrite
  | @cons bindings f outer typed hf hrest ih =>
      rw [Scope.overwrite?, hf key, ← hhas] at hwrite
      rw [changeFirst]
      split at hwrite
      · next hf' =>
        obtain rfl := Option.some.inj hwrite
        rw [if_pos hf']
        exact .cons (hf.set hputs) hrest
      · next hf' =>
        obtain ⟨changed, hc, rfl⟩ := Option.map_eq_some_iff.1 hwrite
        rw [if_neg hf']
        exact .cons hf (ih hc)

/-- A scope shows a typed state: frame by frame it binds the values of what is kept there. -/
def Related (s : Scope) (t : State) : Prop := List.Forall₂ Shows s.frames t.frames

lemma related_root : Related .root .root := .cons shows_empty .nil

namespace Related

/-- Every binding is the value of what is kept in its frame. -/
lemma binding? (h : Related s t) (n : ℕ) (key : String) :
    s.binding? n key = t.frames[n]?.bind fun f => f.value? key := by
  have hlist : ∀ (frames : List Bindings) (typed : List Frame), List.Forall₂ Shows frames typed →
      ∀ n : ℕ, frames[n]?.bind (Entries.get? key) = typed[n]?.bind fun f => f.value? key := by
    intro frames typed hft
    induction hft with
    | nil => simp
    | cons hf _ ih =>
        intro n
        cases n with
        | zero => simpa using hf key
        | succ n => simpa using ih n
  exact hlist _ _ h n

lemma push (h : Related s t) : Related s.push t.push := .cons shows_empty h

lemma pop (h : Related s t) (hpop : s.pop? = some u) : Related u t.pop := by
  obtain ⟨top, below⟩ := s
  obtain ⟨f, typed⟩ := t
  obtain ⟨-, hrest⟩ := List.forall₂_cons.1 h
  cases hrest with
  | nil => cases hpop
  | cons hf hrest =>
      obtain rfl := Option.some.inj hpop
      exact .cons hf hrest

/-- A value that is added is put into the innermost frame. -/
lemma add (h : Related s t) {change : Frame → Frame} (hputs : Puts change key v) :
    Related (s.add key v) (t.changeTop change) := by
  obtain ⟨hf, hrest⟩ := List.forall₂_cons.1 h
  exact .cons (hf.set hputs) hrest

/-- A value that is modified is put into the nearest frame that has one. -/
lemma modify (h : Related s t) {has : Frame → Bool} {change : Frame → Frame}
    (hhas : ∀ f : Frame, has f = (f.value? key).isSome) (hputs : Puts change key v)
    (hu : s.modify? key v = some u) : Related u (t.changeNearest has change) := by
  rw [Related, State.frames_changeNearest]
  exact forall₂_of_overwrite? h hhas hputs (Scope.modify?_eq_some_iff.1 hu)

lemma setTable (h : Related s t) {table : RuleTable}
    (hu : s.modify? Tables.key table.toValue = some u) : Related u (t.setTable table) :=
  h.modify (fun f => by simp) (puts_withTable table) hu

lemma setCounter (h : Related s t) {n : UInt64}
    (hu : s.modify? Counter.key (.natural n) = some u) : Related u (t.setCounter n) :=
  h.modify (fun f => by simp) (puts_withCounter n) hu

end Related

/-! ### Reading -/

/-- On related states the action gives a part of the typed state, where there is one. -/
def Gives {α : Type} (a : Action α) (key : String) (part : State → Option α) : Prop :=
  ∀ ⦃s : Scope⦄ ⦃t : State⦄, Related s t →
    (a s).result = ((part t).map .ok).getD (.error (.uninitialized key))

namespace Gives

variable {α : Type} {a : Action α} {part : State → Option α} {x : α} {e : TemplateError}

/-- What reads a key gives what the frames keep under it, if that is decoded from its values. -/
lemma of_reads {decode : Value → Except TemplateError α} {keeps : Frame → Option α}
    {encode : α → Value} (ha : a.Reads key decode)
    (hvalue : ∀ f : Frame, f.value? key = (keeps f).map encode)
    (hdecode : ∀ x, decode (encode x) = .ok x) :
    Gives a key fun t => t.frames.findSome? keeps := by
  intro s t h
  have hget : s.get? key = (t.frames.findSome? keeps).map encode := by
    rw [Scope.get?, visible?_eq_findSome? h, List.map_findSome?]
    simp [Function.comp_def, hvalue]
  have hmap : ((t.frames.findSome? keeps).map encode).map decode =
      (t.frames.findSome? keeps).map .ok := by
    rw [Option.map_map]
    exact Option.map_congr fun x _ => hdecode x
  rw [ha.result_eq, hget, hmap]

lemma part_of_ok (hgives : Gives a key part) (h : Related s t) (hx : (a s).result = .ok x) :
    part t = some x := by
  rw [hgives h] at hx
  cases hpart : part t with
  | none => rw [hpart] at hx; cases hx
  | some y => rw [hpart] at hx; rw [Except.ok.inj hx]

lemma part_of_error (hgives : Gives a key part) (h : Related s t)
    (he : (a s).result = .error e) : part t = none ∧ e = .uninitialized key := by
  rw [hgives h] at he
  cases hpart : part t with
  | none => rw [hpart] at he; exact ⟨rfl, (Except.error.inj he).symm⟩
  | some y => rw [hpart] at he; cases he

end Gives

/-- A table is loaded exactly where one is kept. -/
lemma gives_load : Gives Tables.load Tables.key State.table? :=
  .of_reads Tables.reads_load value?_tables Tables.decode_toValue

/-- A counter is read exactly where one is kept. -/
lemma gives_current : Gives Counter.current Counter.key State.counter? :=
  .of_reads Counter.reads_current value?_counter Counter.decode_natural

/-! ### Running -/

/-- The outcome on a scope is that on a typed state: the same result, and related states. -/
def Agrees {α : Type} (result : Except TemplateError α) (s : Scope)
    (typed : Except Fault α × State) : Prop :=
  result = typed.1.mapError Fault.error ∧ Related s typed.2

/-- However a call ends on a scope, it ends so on a related state. -/
lemma Related.run (h : Related s t) (c : Call) :
    Agrees (c.run s).result (c.run s).scope (Typed.run c t) := by
  have heff := c.effect s
  generalize c.run s = o at heff
  cases heff with
  | tableCreated => exact ⟨rfl, h.add (puts_withTable .empty)⟩
  | counterReset => exact ⟨rfl, h.add (puts_withCounter 0)⟩
  | ruleAdded load store =>
      simp only [Typed.run, gives_load.part_of_ok h load]
      exact ⟨rfl, h.setTable store⟩
  | emitterAttached load attach store =>
      simp only [Typed.run, gives_load.part_of_ok h load, attach]
      exact ⟨rfl, h.setTable store⟩
  | formsPrinted load =>
      simp only [Typed.run, gives_load.part_of_ok h load]
      exact ⟨rfl, h⟩
  | nameTaken current lt store =>
      simp only [Typed.run, gives_current.part_of_ok h current, if_pos lt]
      exact ⟨rfl, h.setCounter store⟩
  | noTable reads load =>
      obtain ⟨hnone, rfl⟩ := gives_load.part_of_error h load
      cases c with
      | addRule name pattern => simp only [Typed.run, hnone]; exact ⟨rfl, h⟩
      | addEmitter name emitter => simp only [Typed.run, hnone]; exact ⟨rfl, h⟩
      | constructPeg => simp only [Typed.run, hnone]; exact ⟨rfl, h⟩
      | createEmptyTables => cases reads
      | resetVariables => cases reads
      | genVar => cases reads
  | noRule load attach =>
      simp only [Typed.run, gives_load.part_of_ok h load, attach]
      exact ⟨rfl, h⟩
  | noCounter current =>
      obtain ⟨hnone, rfl⟩ := gives_current.part_of_error h current
      simp only [Typed.run, hnone]
      exact ⟨rfl, h⟩
  | exhausted current ge =>
      simp only [Typed.run, gives_current.part_of_ok h current, if_neg (Nat.not_lt.mpr ge)]
      exact ⟨rfl, h⟩

/-- A call of a function comes to the same on related states. -/
lemma Related.invoke (h : Related s t) (f : TemplateFunction) (args : List String) :
    Agrees (f.invoke args s).result (f.invoke args s).scope (Typed.invoke f args t) := by
  unfold Typed.invoke
  cases hargs : Call.ofArgs? f args with
  | none =>
      rw [TemplateFunction.invoke_of_not_fit hargs]
      exact ⟨rfl, h⟩
  | some c =>
      rw [TemplateFunction.invoke_of_ofArgs? hargs]
      exact h.run c

/-- Texts put together behind a first one are that text and what the others come to. -/
lemma map_join_cons (x : String) (r : Except TemplateError (List String)) :
    (r.map (x :: ·)).map String.join = (r.map String.join).map (x ++ ·) := by
  cases r <;> simp [Except.map]

lemma map_join_append (xs : List String) (r : Except TemplateError (List String)) :
    (r.map (xs ++ ·)).map String.join = (r.map String.join).map (String.join xs ++ ·) := by
  cases r <;> simp [Except.map]

/-- What follows a first text comes to the same where it came to the same without it. -/
lemma Agrees.cons {r : Except TemplateError String} {typed : Except Fault String × State}
    (h : Agrees r s typed) (x : String) :
    Agrees (r.map (x ++ ·)) s (typed.1.map (x ++ ·), typed.2) := by
  obtain ⟨rfl, hrel⟩ := h
  refine ⟨?_, hrel⟩
  cases typed.1 <;> rfl

/-- A script comes to the same on related states. -/
theorem Related.texts (h : Related s t) (steps : List Step) :
    Agrees ((Script.texts steps s).result.map String.join) (Script.texts steps s).scope
      (render steps t) := by
  induction steps using Script.ind generalizing s t with
  | nil => exact ⟨rfl, h⟩
  | text x rest ih =>
      rw [Script.texts_text, map_join_cons]
      exact (ih h).cons x
  | call f args rest ih =>
      have hagrees := h.invoke f args
      rcases hinv : f.invoke args s with ⟨r, s', log⟩
      rcases htyped : Typed.invoke f args t with ⟨r', t'⟩
      rw [hinv, htyped] at hagrees
      obtain ⟨rfl, hrel⟩ := hagrees
      cases r' with
      | error fault =>
          rw [Script.texts_call_of_error hinv]
          simp only [render, renderStep, htyped]
          exact ⟨rfl, hrel⟩
      | ok x =>
          rw [Script.texts_call_of_ok hinv, map_join_cons]
          simp only [render, renderStep, htyped]
          exact (ih hrel).cons x
  | scope inner rest ihi ihr =>
      obtain ⟨hresult, hrel⟩ := ihi h.push
      obtain ⟨s', hpop, -⟩ := Script.exists_pop?_texts inner s
      rcases htyped : render inner t.push with ⟨r', t'⟩
      rw [htyped] at hresult hrel
      have hback : Related s' t'.pop := hrel.pop hpop
      cases r' with
      | error fault =>
          have hinner := map_eq_error_iff.1 hresult
          rw [Script.texts_scope_of_error hinner hpop]
          simp only [render, renderStep, htyped]
          exact ⟨rfl, hback⟩
      | ok x =>
          cases hinner : (Script.texts inner s.push).result with
          | error e => rw [hinner] at hresult; cases hresult
          | ok xs =>
              rw [hinner] at hresult
              obtain rfl := Except.ok.inj hresult
              rw [Script.texts_scope_of_ok hinner hpop, map_join_append]
              simp only [render, renderStep, htyped]
              exact (ihr hback).cons (String.join xs)

/-- Rendering a script comes to the same on related states. -/
lemma Related.render (h : Related s t) (script : Script) :
    Agrees (script.render s).result (script.render s).scope (render script t) :=
  h.texts script

end RuleScript.Typed

namespace RuleScript

open RuleScript.Json (Value)

/-- Renders scripts one after another, each on the scope that the one before it has left, be it
rendered to its end or not. -/
def Script.renderEach : List Script → Scope → List (Outcome String)
  | [], _ => []
  | script :: later, s => script.render s :: renderEach later (script.render s).scope

/-! ### What can be reached -/

/-- The scopes that calls, entering and leaving make of the empty one. -/
inductive Scope.Reachable : Scope → Prop
  | root : Reachable .root
  | push {s : Scope} : Reachable s → Reachable s.push
  | pop {s t : Scope} : Reachable s → s.pop? = some t → Reachable t
  | call {s : Scope} (f : TemplateFunction) (args : List String) :
    Reachable s → Reachable (f.invoke args s).scope

namespace Scope

variable {s : Scope}

/-- What can be reached shows a typed state. -/
lemma Reachable.exists_related (h : Reachable s) : ∃ t, Typed.Related s t := by
  induction h with
  | root => exact ⟨_, Typed.related_root⟩
  | push _ ih =>
      obtain ⟨t, ht⟩ := ih
      exact ⟨_, ht.push⟩
  | pop _ hpop ih =>
      obtain ⟨t, ht⟩ := ih
      exact ⟨_, ht.pop hpop⟩
  | call f args _ ih =>
      obtain ⟨t, ht⟩ := ih
      exact ⟨_, (ht.invoke f args).2⟩

/-- A script leads from what can be reached to what can be reached. -/
lemma Reachable.render (h : Reachable s) (script : Script) : Reachable (script.render s).scope :=
  (Script.texts_keeps (R := fun s t => Reachable s → Reachable t) (E := fun _ => True)
    (fun _ hs => hs) (fun _ _ _ h₁ h₂ hs => h₂ (h₁ hs)) (fun f args _ => .call f args)
    (fun _ _ _ _ _ => trivial) (fun _ _ _ h hpop hs => .pop (h hs.push) hpop) script s).2.1 h

/-- Every outcome of scripts rendered one after another is that of one of them on a scope that can
be reached. -/
lemma Reachable.exists_render (h : Reachable s) {scripts : List Script} {o : Outcome String}
    (ho : o ∈ Script.renderEach scripts s) :
    ∃ (script : Script) (u : Scope), u.Reachable ∧ o = script.render u := by
  induction scripts generalizing s with
  | nil => cases ho
  | cons script later ih =>
      rcases List.mem_cons.1 ho with rfl | hlater
      · exact ⟨script, s, h, rfl⟩
      · exact ih (h.render script) hlater

/-- A table that can be reached is one: every value under its key is read back. -/
lemma Reachable.exists_table (h : Reachable s) {n : ℕ} {v : Value}
    (hv : s.binding? n Tables.key = some v) : ∃ t, RuleTable.ofValue v = .ok t := by
  obtain ⟨typed, htyped⟩ := h.exists_related
  rw [htyped.binding?] at hv
  obtain ⟨f, -, hf⟩ := Option.bind_eq_some_iff.1 hv
  rw [Typed.value?_tables] at hf
  obtain ⟨t, -, rfl⟩ := Option.map_eq_some_iff.1 hf
  exact ⟨t, t.ofValue_toValue⟩

/-- A counter that can be reached is one: every value under its key is a natural number. -/
lemma Reachable.exists_natural (h : Reachable s) {n : ℕ} {v : Value}
    (hv : s.binding? n Counter.key = some v) : ∃ k : UInt64, v = .natural k := by
  obtain ⟨typed, htyped⟩ := h.exists_related
  rw [htyped.binding?] at hv
  obtain ⟨f, -, hf⟩ := Option.bind_eq_some_iff.1 hv
  rw [Typed.value?_counter] at hf
  obtain ⟨k, -, rfl⟩ := Option.map_eq_some_iff.1 hf
  exact ⟨k, rfl⟩

end Scope

namespace Typed

/-- Scripts rendered one after another come to the same on related states. -/
lemma Related.renderEach {s : Scope} {t : State} (h : Related s t) (scripts : List Script) :
    List.Forall₂ (fun o typed => Agrees o.result o.scope typed)
      (Script.renderEach scripts s) (renderEach scripts t) := by
  induction scripts generalizing s t with
  | nil => exact .nil
  | cons script later ih =>
      have hagrees := h.render script
      exact .cons hagrees (ih hagrees.2)

/-- The faults, one by one, as template functions report them. -/
lemma Fault.error_cases (fault : Fault) :
    (∃ f found, fault.error = .arityMismatch f found) ∨
      fault.error = .uninitialized Tables.key ∨ fault.error = .uninitialized Counter.key ∨
      (∃ name, fault.error = .ruleNotFound name) ∨
      fault.error = .malformed Counter.key .exhausted := by
  cases fault <;> simp [Fault.error]

/-- **Simulation.** Scripts that are rendered one after another, starting from the empty scope,
give the results that they have on typed states, and leave scopes that show those states, be they
rendered to their ends or not. All that is left can be reached, where every table and every counter
is one; and a script fails only for the number of arguments of a call, for a table or a counter that
was not set up, for a rule that is not there, or for a counter that has no successor. -/
theorem simulation (scripts : List Script) :
    List.Forall₂ (fun o typed => o.result = typed.1.mapError Fault.error ∧ Related o.scope typed.2)
      (Script.renderEach scripts .root) (renderEach scripts .root) ∧
    (∀ o ∈ Script.renderEach scripts .root, o.scope.Reachable ∧ ∀ e, o.result = .error e →
      (∃ f found, e = .arityMismatch f found) ∨
        e = .uninitialized Tables.key ∨ e = .uninitialized Counter.key ∨
        (∃ name, e = .ruleNotFound name) ∨ e = .malformed Counter.key .exhausted) ∧
    (∀ s : Scope, s.Reachable → ∀ n v,
      (s.binding? n Tables.key = some v → ∃ t, RuleTable.ofValue v = .ok t) ∧
        (s.binding? n Counter.key = some v → ∃ k : UInt64, v = .natural k)) := by
  refine ⟨related_root.renderEach scripts, ?_, fun s hs n v => ⟨hs.exists_table, hs.exists_natural⟩⟩
  intro o ho
  obtain ⟨script, u, hu, rfl⟩ := Scope.Reachable.root.exists_render ho
  refine ⟨hu.render script, ?_⟩
  intro e he
  obtain ⟨t, ht⟩ := hu.exists_related
  have hresult := (ht.render script).1
  rw [he] at hresult
  cases htyped : (render script t).1 with
  | ok x => rw [htyped] at hresult; cases hresult
  | error fault =>
      rw [htyped] at hresult
      obtain rfl := Except.error.inj hresult
      exact fault.error_cases

end Typed

end RuleScript
