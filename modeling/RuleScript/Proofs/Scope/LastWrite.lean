import RuleScript.Proofs.Scope.Marks
import RuleScript.Template.Action

/-!
Scopes remember the last write. What a key means behind any history of entering, leaving, adding and
modifying, told from the history alone.

* `Edit`, `Scope.edited`, `EditHistory.of`: what can be done to a scope itself, the scope that some
  edits make of the empty one, and how each of them ended;
* `EditHistory.binding?`, `EditHistory.lastWrite?`: the binding of a key that is visible, and the value
  that was written to a binding last;
* `Edit.column_act`: what an edit does to the bindings of one key, which is nothing if it writes under
  another one;
* `EditHistory.keeps_edited`: along every history each open frame in which the key was added, and no
  other one, binds it, and to the last value that was written there;
* `EditHistory.scope_keeps_last_write`: what reading, modifying and leaving give then.

Histories are lists with the latest edit first; a binding is known by the number of edits before the
one that added it.
-/

namespace RuleScript

open RuleScript.Json (Value)

/-! ### Edits -/

/-- What can be done to a scope itself. -/
inductive Edit where
  | push
  | pop
  | add (key : String) (value : Value)
  | modify (key : String) (value : Value)

namespace Edit

/-- Makes an edit. -/
def act : Edit → Action Unit
  | push => Action.push
  | pop => Action.pop
  | add key value => Action.add key value
  | modify key value => Action.modify key value

/-- The key that an edit writes under, if it writes at all. -/
def key? : Edit → Option String
  | add key _ | modify key _ => some key
  | push | pop => none

/-- Whether an edit does anything else than write under another key. -/
def concerns (key : String) (e : Edit) : Bool := e.key?.all fun k => k = key

end Edit

/-- An edit that has been made, and how it ended. -/
structure Edited where
  edit : Edit
  result : Except TemplateError Unit

namespace Edited

/-- What an edit was for the bindings of a key. -/
def move (key : String) : Edited → Move
  | ⟨.push, .ok _⟩ => .enter
  | ⟨.pop, .ok _⟩ => .leave
  | ⟨.add k _, .ok _⟩ => if k = key then .bind else .stay
  | _ => .stay

/-- Whether a frame was entered. -/
def isPush : Edited → Bool
  | ⟨.push, _⟩ => true
  | _ => false

/-- Whether a frame was left. -/
def isPop : Edited → Bool
  | ⟨.pop, .ok _⟩ => true
  | _ => false

end Edited

/-- The edits that have been made, the latest first. -/
abbrev EditHistory := List Edited

/-- The scope behind some edits of the empty scope, the latest edit first. -/
def Scope.edited : List Edit → Scope
  | [] => .root
  | e :: earlier => (e.act (edited earlier)).scope

namespace EditHistory

/-- The history of some edits of the empty scope, the latest edit first. -/
def of : List Edit → EditHistory
  | [] => []
  | e :: earlier => ⟨e, (e.act (Scope.edited earlier)).result⟩ :: of earlier

/-- The binding of a key that is visible: the latest one in the innermost open frame in which the key
was added. It is known by the number of edits before the one that added it. -/
def binding? (key : String) (past : EditHistory) : Option ℕ :=
  Move.owner? (past.map (Edited.move key))

/-- What an edit wrote under a key, and the binding that it wrote to: adding makes a new binding, and
modifying writes to the one that was visible. -/
def write? (key : String) (past : EditHistory) : Edited → Option (ℕ × Value)
  | ⟨.add k v, .ok _⟩ => if k = key then some (past.length, v) else none
  | ⟨.modify k v, .ok _⟩ => if k = key then (binding? key past).map (·, v) else none
  | _ => none

/-- The value that was written to a binding last. -/
def lastWrite? (key : String) (i : ℕ) : EditHistory → Option Value
  | [] => none
  | made :: past =>
    match write? key past made with
    | some (j, v) => if j = i then some v else lastWrite? key i past
    | none => lastWrite? key i past

end EditHistory

/-! ### One edit -/

/-- Where there is no first value there is none to change. -/
lemma setFirst_of_findSome?_eq_none {α : Type} {xs : List (Option α)} (h : xs.findSome? id = none)
    (x : α) : setFirst x xs = xs := by
  induction xs with
  | nil => rfl
  | cons y xs ih =>
      cases y with
      | none => rw [setFirst, ih h]
      | some y => cases h

namespace Edit

variable {s : Scope} {key : String}

lemma act_pop_of_none (h : s.pop? = none) : pop.act s = ⟨.error .scopeUnderflow, s, []⟩ := by
  rw [act, Action.pop, h]

lemma act_pop_of_some {t : Scope} (h : s.pop? = some t) :
    pop.act s = ⟨.ok (), t, [.leftFrame t.depth]⟩ := by
  rw [act, Action.pop, h]

lemma act_modify_of_none {v : Value} (h : s.modify? key v = none) :
    (modify key v).act s = ⟨.error (.uninitialized key), s, []⟩ := by
  rw [act, Action.modify, h]

lemma act_modify_of_some {v : Value} {t : Scope} (h : s.modify? key v = some t) :
    (modify key v).act s = ⟨.ok (), t, []⟩ := by
  rw [act, Action.modify, h]

/-- Leaving fails at the root frame and nowhere else. -/
lemma result_pop (s : Scope) :
    (pop.act s).result = if s.depth = 1 then .error .scopeUnderflow else .ok () := by
  cases h : s.pop? with
  | none => rw [act_pop_of_none h, if_pos ((Scope.pop?_eq_none_iff s).1 h)]
  | some t =>
      have hdepth := Scope.depth_of_pop? h
      have hpos := t.depth_pos
      rw [act_pop_of_some h, if_neg (by omega)]

/-- An edit that fails changes nothing. -/
lemma scope_of_error {e : Edit} {cause : TemplateError} (h : (e.act s).result = .error cause) :
    (e.act s).scope = s := by
  cases e with
  | push => cases h
  | pop =>
      cases hpop : s.pop? with
      | none => rw [act_pop_of_none hpop]
      | some t =>
          rw [act_pop_of_some hpop] at h
          cases h
  | add k v => cases h
  | modify k v =>
      cases hmodify : s.modify? k v with
      | none => rw [act_modify_of_none hmodify]
      | some t =>
          rw [act_modify_of_some hmodify] at h
          cases h

/-- An edit changes the number of frames by entering one or by leaving one. -/
lemma depth_act (e : Edit) (s : Scope) :
    (e.act s).scope.depth + (if Edited.isPop ⟨e, (e.act s).result⟩ then 1 else 0) =
      s.depth + (if Edited.isPush ⟨e, (e.act s).result⟩ then 1 else 0) := by
  cases e with
  | push => rfl
  | pop =>
      cases hpop : s.pop? with
      | none =>
          rw [act_pop_of_none hpop]
          rfl
      | some t =>
          rw [act_pop_of_some hpop]
          exact (Scope.depth_of_pop? hpop).symm
  | add k v => rfl
  | modify k v =>
      cases hmodify : s.modify? k v with
      | none =>
          rw [act_modify_of_none hmodify]
          rfl
      | some t =>
          rw [act_modify_of_some hmodify]
          exact Scope.depth_of_modify? hmodify

/-- What an edit does to the bindings of a key. -/
def onColumn (key : String) (column : List (Option Value)) : Edit → List (Option Value)
  | push => none :: column
  | pop => if column.length = 1 then column else column.tail
  | add k v => if k = key then some v :: column.tail else column
  | modify k v => if k = key then setFirst v column else column

/-- The bindings of a key behind an edit depend on nothing but those before it. -/
lemma column_act (e : Edit) (s : Scope) (key : String) :
    (e.act s).scope.column key = e.onColumn key (s.column key) := by
  cases e with
  | push => rfl
  | pop =>
      have hlength : (s.column key).length = s.depth := by simp [Scope.column, Scope.depth]
      rw [onColumn, hlength]
      cases hpop : s.pop? with
      | none => rw [act_pop_of_none hpop, if_pos ((Scope.pop?_eq_none_iff s).1 hpop)]
      | some t =>
          have hdepth := Scope.depth_of_pop? hpop
          have hpos := t.depth_pos
          rw [act_pop_of_some hpop, if_neg (by omega), Scope.column_of_pop? hpop]
  | add k v =>
      rw [onColumn]
      split
      · next hk =>
        subst hk
        exact Scope.column_add s k v
      · next hk => exact Scope.column_add_of_ne (Ne.symm hk) s v
  | modify k v =>
      rw [onColumn]
      cases hmodify : s.modify? k v with
      | none =>
          rw [act_modify_of_none hmodify]
          split
          · next hk =>
            subst hk
            rw [Scope.modify?_eq_none_iff, Scope.get?_eq_findSome?] at hmodify
            rw [setFirst_of_findSome?_eq_none hmodify]
          · rfl
      | some t =>
          rw [act_modify_of_some hmodify]
          split
          · next hk =>
            subst hk
            exact Scope.column_of_modify? hmodify
          · next hk => exact Scope.column_of_modify?_of_ne (Ne.symm hk) hmodify

/-- An edit that writes under another key leaves the bindings of a key alone. -/
lemma onColumn_of_not_concerns {e : Edit} (h : e.concerns key = false)
    (column : List (Option Value)) : e.onColumn key column = column := by
  cases e with
  | push => cases h
  | pop => cases h
  | add k v => exact if_neg (of_decide_eq_false h)
  | modify k v => exact if_neg (of_decide_eq_false h)

end Edit

/-! ### Along a history -/

namespace EditHistory

variable {key : String} {past : EditHistory} {made : Edited} {s : Scope}

/-- Edits that write under other keys may be left out. -/
lemma column_edited_filter (edits : List Edit) (key : String) :
    (Scope.edited (edits.filter (Edit.concerns key))).column key =
      (Scope.edited edits).column key := by
  induction edits with
  | nil => rfl
  | cons e earlier ih =>
      rw [Scope.edited, Edit.column_act]
      cases h : e.concerns key with
      | false =>
          rw [List.filter_cons_of_neg (by simp [h]), ih, Edit.onColumn_of_not_concerns h]
      | true => rw [List.filter_cons_of_pos h, Scope.edited, Edit.column_act, ih]

/-- There is a frame for every one that was entered and not left, and the root frame. -/
lemma depth_edited (edits : List Edit) :
    (Scope.edited edits).depth + (of edits).countP Edited.isPop =
      1 + (of edits).countP Edited.isPush := by
  induction edits with
  | nil => rfl
  | cons e earlier ih =>
      have hstep := e.depth_act (Scope.edited earlier)
      rw [Scope.edited, of, List.countP_cons, List.countP_cons]
      omega

lemma lastWrite?_of_none (h : write? key past made = none) (i : ℕ) :
    lastWrite? key i (made :: past) = lastWrite? key i past := by
  rw [lastWrite?, h]

lemma lastWrite?_self {i : ℕ} {v : Value} (h : write? key past made = some (i, v)) :
    lastWrite? key i (made :: past) = some v := by
  rw [lastWrite?, h]
  exact if_pos rfl

lemma lastWrite?_of_ne {i j : ℕ} {v : Value} (h : write? key past made = some (j, v))
    (hne : j ≠ i) : lastWrite? key i (made :: past) = lastWrite? key i past := by
  rw [lastWrite?, h]
  exact if_neg hne

/-- The scope binds the key just in the open frames in which it was added, to the value that was
written last to the latest binding there. -/
def Keeps (key : String) (past : EditHistory) (s : Scope) : Prop :=
  s.Marked (fun i v => lastWrite? key i past = some v) key (past.map (Edited.move key))

namespace Keeps

variable {t : Scope} {v : Value}

/-- What writes nothing under the key leaves what was written last. -/
lemma imp (h : Keeps key past s) (hmade : write? key past made = none) :
    s.Marked (fun i v => lastWrite? key i (made :: past) = some v) key
      (past.map (Edited.move key)) := by
  refine Scope.Marked.imp h ?_
  intro i w _ hw
  rw [lastWrite?_of_none hmade, hw]

/-- What neither enters nor leaves a frame and writes nothing under the key changes nothing. -/
lemma stay (h : Keeps key past s) (hmade : write? key past made = none)
    (hmove : made.move key = .stay) (ht : t.column key = s.column key) :
    Keeps key (made :: past) t := by
  rw [Keeps, List.map_cons, hmove]
  exact (h.imp hmade).stay ht

/-- Adding makes a new binding. -/
lemma add (h : Keeps key past s) : Keeps key (⟨.add key v, .ok ()⟩ :: past) (s.add key v) := by
  have hwrite : write? key past ⟨.add key v, .ok ()⟩ = some (past.length, v) := if_pos rfl
  have hmove : Edited.move key ⟨.add key v, .ok ()⟩ = .bind := if_pos rfl
  have hearlier : s.Marked
      (fun i w => lastWrite? key i (⟨.add key v, .ok ()⟩ :: past) = some w) key
      (past.map (Edited.move key)) := by
    refine Scope.Marked.imp h ?_
    intro i w hi hw
    rw [List.length_map] at hi
    rw [lastWrite?_of_ne hwrite (Nat.ne_of_gt hi), hw]
  rw [Keeps, List.map_cons, hmove]
  refine hearlier.bind ?_
  rw [List.length_map]
  exact lastWrite?_self hwrite

/-- Modifying writes to the binding that is visible. -/
lemma modify (h : Keeps key past s) (ht : s.modify? key v = some t) :
    Keeps key (⟨.modify key v, .ok ()⟩ :: past) t := by
  have hwrite : write? key past ⟨.modify key v, .ok ()⟩ = (binding? key past).map (·, v) :=
    if_pos rfl
  refine Scope.Marked.write h ht ?_ ?_
  · intro i hi
    have hbinding : binding? key past = some i := hi
    exact lastWrite?_self (by rw [hwrite, hbinding]; rfl)
  · intro i w hi hw
    cases hbinding : binding? key past with
    | none => rw [lastWrite?_of_none (by rw [hwrite, hbinding]; rfl), hw]
    | some j =>
        have hne : j ≠ i := by
          rintro rfl
          exact hi hbinding
        rw [lastWrite?_of_ne (by rw [hwrite, hbinding]; rfl) hne, hw]

end Keeps

/-- One more edit keeps what the history says then. -/
lemma Keeps.step (h : Keeps key past s) (e : Edit) :
    Keeps key (⟨e, (e.act s).result⟩ :: past) (e.act s).scope := by
  cases e with
  | push => exact (h.imp rfl).enter
  | pop =>
      cases hpop : s.pop? with
      | none =>
          rw [Edit.act_pop_of_none hpop]
          exact h.stay rfl rfl rfl
      | some t =>
          rw [Edit.act_pop_of_some hpop]
          exact (h.imp rfl).leave hpop
  | add k v =>
      by_cases hk : k = key
      · subst hk
        exact h.add
      · exact h.stay (if_neg hk) (if_neg hk) (Scope.column_add_of_ne (Ne.symm hk) s v)
  | modify k v =>
      cases hmodify : s.modify? k v with
      | none =>
          rw [Edit.act_modify_of_none hmodify]
          exact h.stay rfl rfl rfl
      | some t =>
          rw [Edit.act_modify_of_some hmodify]
          by_cases hk : k = key
          · subst hk
            exact h.modify hmodify
          · exact h.stay (if_neg hk) rfl (Scope.column_of_modify?_of_ne (Ne.symm hk) hmodify)

/-- Along every history a scope keeps what was written last. -/
theorem keeps_edited (key : String) (edits : List Edit) :
    Keeps key (of edits) (Scope.edited edits) := by
  induction edits with
  | nil => exact Scope.marked_root _ _
  | cons e earlier ih => exact ih.step e

/-- What the key means behind some edits. -/
lemma rel_get? (key : String) (edits : List Edit) :
    Option.Rel (fun i v => lastWrite? key i (of edits) = some v) (binding? key (of edits))
      ((Scope.edited edits).get? key) :=
  (keeps_edited key edits).rel_get?

/-! ### What is read -/

/-- A key that means something is read. -/
lemma result_get_of_some {v : Value} (h : s.get? key = some v) :
    (Action.get key s).result = .ok v := by
  rw [Action.get, h]

/-- A key that means nothing is not read. -/
lemma result_get_of_none (h : s.get? key = none) :
    (Action.get key s).result = .error (.uninitialized key) := by
  rw [Action.get, h]

/-- Modifying fails where reading does. -/
lemma result_modify (s : Scope) (key : String) (v : Value) :
    (Action.modify key v s).result =
      if (s.get? key).isSome then .ok () else .error (.uninitialized key) := by
  have hnone := Scope.modify?_eq_none_iff s key v
  cases hmodify : s.modify? key v with
  | none =>
      rw [Action.modify, hmodify, hnone.1 hmodify]
      rfl
  | some t =>
      have hsome : s.get? key ≠ none := fun hget => by simp [hnone.2 hget] at hmodify
      rw [Action.modify, hmodify, if_pos (Option.isSome_iff_ne_none.2 hsome)]

/-- **Scopes keep the last write.** Behind every history of entering, leaving, adding and modifying
a key is not read exactly if no open frame has a binding of it, and otherwise as the value that was
written last to the latest binding in the innermost open frame that has one. Modifying fails where
reading does, leaving fails at the root frame and nowhere else, and what fails changes nothing.
There is always a frame for every one that was entered and not left, and the root frame; and what is
done under other keys may be left out. -/
theorem scope_keeps_last_write (edits : List Edit) (key : String) :
    ((Action.get key (Scope.edited edits)).result = .error (.uninitialized key) ↔
      binding? key (of edits) = none) ∧
    (∀ i, binding? key (of edits) = some i →
      ∃ v, lastWrite? key i (of edits) = some v ∧
        (Action.get key (Scope.edited edits)).result = .ok v) ∧
    (∀ v, (Action.modify key v (Scope.edited edits)).result =
      if (binding? key (of edits)).isSome then .ok () else .error (.uninitialized key)) ∧
    ((Action.pop (Scope.edited edits)).result =
      if (Scope.edited edits).depth = 1 then .error .scopeUnderflow else .ok ()) ∧
    (∀ (e : Edit) (cause : TemplateError), (e.act (Scope.edited edits)).result = .error cause →
      (e.act (Scope.edited edits)).scope = Scope.edited edits) ∧
    1 ≤ (Scope.edited edits).depth ∧
    (Scope.edited edits).depth + (of edits).countP Edited.isPop =
      1 + (of edits).countP Edited.isPush ∧
    (Action.get key (Scope.edited (edits.filter (Edit.concerns key)))).result =
      (Action.get key (Scope.edited edits)).result := by
  have hothers : (Scope.edited (edits.filter (Edit.concerns key))).get? key =
      (Scope.edited edits).get? key := by
    rw [Scope.get?_eq_findSome?, column_edited_filter, ← Scope.get?_eq_findSome?]
  have hpop := Edit.result_pop (Scope.edited edits)
  have hrel := rel_get? key edits
  generalize hbinding : binding? key (of edits) = binding at hrel
  generalize hget : (Scope.edited edits).get? key = value at hrel
  refine ⟨?_, ?_, ?_, hpop, fun e cause => Edit.scope_of_error, Scope.depth_pos _,
    depth_edited edits, ?_⟩
  · cases hrel with
    | none => exact iff_of_true (result_get_of_none hget) rfl
    | some hv => exact iff_of_false (by rw [result_get_of_some hget]; simp) (by simp)
  · rintro i rfl
    cases hrel with
    | @some _ v hv => exact ⟨v, hv, result_get_of_some hget⟩
  · intro v
    rw [result_modify, hget]
    cases hrel with
    | none => rfl
    | some hv => rfl
  · rw [Action.get, Action.get, hothers]
    cases (Scope.edited edits).get? key <;> rfl

/-- What is modified from a nested frame is read behind it, and a binding of the nested frame itself
is gone with it. -/
theorem scope_keeps_last_write_nested :
    (Action.get "variable" (Scope.edited [.pop, .modify "variable" (.natural 9),
      .add "variable" (.natural 8), .modify "variable" (.natural 7), .push,
      .add "variable" (.natural 0)])).result = .ok (.natural 7) := by
  obtain ⟨v, hv, hget⟩ := (scope_keeps_last_write [.pop, .modify "variable" (.natural 9),
    .add "variable" (.natural 8), .modify "variable" (.natural 7), .push,
    .add "variable" (.natural 0)] "variable").2.1 0 rfl
  rw [hget, ← Option.some.inj hv]

end EditHistory

end RuleScript
