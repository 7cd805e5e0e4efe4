import Mathlib.Data.UInt
import RuleScript.Proofs.Scope.Marks
import RuleScript.Proofs.Template.Atomic

/-!
Histories of a scope: calls of template functions, entering and leaving, in any order, failures
included. What a scope keeps, tables and counters alike, is told from its history alone.

* `Scope.behind`, `History.of`: the scope that some operations make of the empty one, and what each
  of them gave;
* `Cell`: the table or the counter, with the function that sets it up and the calls that change it;
* `History.owner?`, `History.changes`: the set-up that a call belongs to, the latest one in the
  innermost open frame in which there was one, and the changes that belong to a set-up;
* `Cell.Effect`: what a call can do to a cell;
* `History.keeps_behind`: along every history each open frame in which there was a set-up, and no other
  one, keeps what the changes that belong to the latest set-up in it have made of a new cell.

Histories are lists with the latest entry first; a set-up is known by the number of entries before
it.
-/

namespace RuleScript

open RuleScript.Json (Value)

/-! ### Histories -/

/-- What can be done to a scope from outside. -/
inductive Operation where
  | push
  | pop
  | call (function : TemplateFunction) (args : List String)

/-- Does an operation. Only a call gives a text. -/
def Operation.act : Operation → Action String
  | .push => do Action.push; return ""
  | .pop => do Action.pop; return ""
  | .call f args => f.invoke args

/-- An operation that has been done, and what it gave. -/
structure Entry where
  operation : Operation
  result : Except TemplateError String

/-- What has been done, the latest first. -/
abbrev History := List Entry

/-- The scope behind some operations on the empty scope, the latest operation first. -/
def Scope.behind : List Operation → Scope
  | [] => .root
  | op :: earlier => (op.act (behind earlier)).scope

/-- The history of some operations on the empty scope, the latest operation first. -/
def History.of : List Operation → History
  | [] => []
  | op :: earlier => ⟨op, (op.act (Scope.behind earlier)).result⟩ :: History.of earlier

/-! ### Set-ups and changes -/

/-- What template functions keep in a scope. -/
inductive Cell where
  | table
  | counter
deriving DecidableEq

namespace Cell

/-- The key of a cell. -/
def key : Cell → String
  | table => Tables.key
  | counter => Counter.key

/-- The function that sets a cell up. -/
def setUp : Cell → TemplateFunction
  | table => .createEmptyTables
  | counter => .resetVariables

/-- Whether a call, if it succeeds, changes a cell that has been set up. -/
def isChangedBy : Cell → Call → Bool
  | table, .addRule .. | table, .addEmitter .. | counter, .genVar => true
  | _, _ => false

end Cell

namespace Entry

/-- What an entry is for the bindings of a cell's key: a successful set-up binds it. -/
def move (c : Cell) : Entry → Move
  | ⟨.push, .ok _⟩ => .enter
  | ⟨.pop, .ok _⟩ => .leave
  | ⟨.call f _, .ok _⟩ => if f = c.setUp then .bind else .stay
  | ⟨_, .error _⟩ => .stay

/-- The call of an entry, if it was a successful change of a cell. -/
def change? (c : Cell) : Entry → Option Call
  | ⟨.call f args, .ok _⟩ => (Call.ofArgs? f args).filter fun call => c.isChangedBy call
  | _ => none

end Entry

namespace History

/-- The set-up that a call belongs to when the given has been done before it: the latest successful
one in the innermost open frame in which there was one. It is known by the number of entries before
it. -/
def owner? (c : Cell) (past : History) : Option ℕ := Move.owner? (past.map (Entry.move c))

/-- The successful changes that belong to a set-up, in the order in which they were made. -/
def changes (c : Cell) (i : ℕ) : History → List Call
  | [] => []
  | entry :: past =>
    changes c i past ++ if owner? c past = some i then (entry.change? c).toList else []

variable {c : Cell} {past : History} {entry : Entry} {i : ℕ}

lemma changes_cons_of_owner? (h : owner? c past = some i) :
    changes c i (entry :: past) = changes c i past ++ (entry.change? c).toList := by
  rw [changes, if_pos h]

lemma changes_cons_of_ne (h : owner? c past ≠ some i) :
    changes c i (entry :: past) = changes c i past := by
  rw [changes, if_neg h, List.append_nil]

lemma changes_cons_of_none (h : entry.change? c = none) (i : ℕ) :
    changes c i (entry :: past) = changes c i past := by
  rw [changes, h, Option.toList_none, ite_self, List.append_nil]

lemma lt_of_owner? (h : owner? c past = some i) : i < past.length := by
  simpa using Move.lt_of_owner? h

/-- Nothing belongs to a set-up that is not yet made. -/
lemma changes_of_length_le (h : past.length ≤ i) : changes c i past = [] := by
  induction past with
  | nil => rfl
  | cons entry past ih =>
      rw [List.length_cons] at h
      have hne : owner? c past ≠ some i := by
        intro howner
        have hlt := lt_of_owner? howner
        omega
      rw [changes_cons_of_ne hne, ih (by omega)]

/-- What belongs to a set-up goes on belonging to it. -/
lemma changes_prefix_append (c : Cell) (i : ℕ) (later past : History) :
    changes c i past <+: changes c i (later ++ past) := by
  induction later with
  | nil => exact List.prefix_rfl
  | cons entry later ih =>
      rw [List.cons_append, changes]
      exact ih.trans (List.prefix_append _ _)

end History

/-! ### Tables and counters made by changes -/

/-- The table with what a call changes in it, if the call finds what it changes. -/
def Call.change? : Call → RuleTable → Option RuleTable
  | .addRule name pattern, t => some (t.withRule name pattern)
  | .addEmitter name emitter, t => t.withEmitter? name emitter
  | _, t => some t

/-- The table that calls make of the empty one, one after another. -/
def RuleTable.ofCalls? (calls : List Call) : Option RuleTable :=
  calls.foldlM (fun t call => call.change? t) .empty

lemma RuleTable.ofCalls?_append_singleton {calls : List Call} {t : RuleTable}
    (h : ofCalls? calls = some t) (call : Call) :
    ofCalls? (calls ++ [call]) = call.change? t := by
  rw [ofCalls?] at h
  rw [ofCalls?, List.foldlM_append, h]
  simp

namespace Cell

/-- The value is what some changes have made of a new cell. -/
def Holds : Cell → List Call → Value → Prop
  | table, calls, v => ∃ t, RuleTable.ofCalls? calls = some t ∧ v = t.toValue
  | counter, calls, v => calls.length < UInt64.size ∧ v = .natural (.ofNat calls.length)

/-- What a call can do to a cell. -/
inductive Effect (c : Cell) (s : Scope) (call : Call) (o : Outcome String) : Prop
  /-- The call fails and changes nothing. -/
  | failed {e : TemplateError} (result : o.result = .error e) (scope : o.scope = s)
  /-- The call binds a new cell in the innermost frame. -/
  | boundNew {x : String} {v : Value} (result : o.result = .ok x)
      (isSetUp : call.function = c.setUp) (isChange : c.isChangedBy call = false)
      (scope : o.scope = s.add c.key v) (holds : c.Holds [] v)
  /-- The call changes the visible cell. -/
  | changed {x : String} {v : Value} (result : o.result = .ok x)
      (isSetUp : call.function ≠ c.setUp) (isChange : c.isChangedBy call = true)
      (store : s.modify? c.key v = some o.scope)
      (holds : ∀ calls w, s.get? c.key = some w → c.Holds calls w → c.Holds (calls ++ [call]) v)
  /-- The call is about something else. -/
  | apart {x : String} (result : o.result = .ok x) (isSetUp : call.function ≠ c.setUp)
      (isChange : c.isChangedBy call = false) (column : o.scope.column c.key = s.column c.key)

end Cell

/-! ### What calls do to cells -/

section Reading

variable {s : Scope}

/-- The table that is loaded is the one that the changes have made. -/
lemma Tables.ofCalls?_of_load {t : RuleTable} {calls : List Call} {w : Value}
    (h : (load s).result = .ok t) (hget : s.get? key = some w) (hw : Cell.table.Holds calls w) :
    RuleTable.ofCalls? calls = some t := by
  obtain ⟨u, hu, rfl⟩ := hw
  have hdecode : decode u.toValue = .ok t := by
    rw [reads_load.result_eq, hget] at h
    exact h
  rw [decode_toValue] at hdecode
  rw [hu, Except.ok.inj hdecode]

/-- The counter stands at the number of the changes. -/
lemma Counter.eq_ofNat_of_current {n : UInt64} {calls : List Call} {w : Value}
    (h : (current s).result = .ok n) (hget : s.get? key = some w)
    (hw : Cell.counter.Holds calls w) :
    calls.length < UInt64.size ∧ n = .ofNat calls.length := by
  obtain ⟨hlt, rfl⟩ := hw
  have hdecode : decode (.natural (.ofNat calls.length)) = .ok n := by
    rw [reads_current.result_eq, hget] at h
    exact h
  exact ⟨hlt, (Except.ok.inj hdecode).symm⟩

end Reading

namespace Call.Effect

variable {s : Scope} {call : Call} {o : Outcome String}

/-- A call whose function writes under no other key than that of another cell leaves the cell
alone. -/
lemma column_eq (h : Call.Effect s call o) {key : String}
    (hkey : ∀ n, call.function.place? s ≠ some (n, key)) : o.scope.column key = s.column key :=
  h.sameOutside.column_eq hkey

/-- What a call does to the table. -/
lemma table (h : Call.Effect s call o) : Cell.table.Effect s call o := by
  have hcounter : ∀ (place : Option ℕ) (n : ℕ),
      place.map (·, Counter.key) ≠ some (n, Cell.table.key) := by
    intro place n
    cases place <;> simp [Cell.key, Tables.key, Counter.key]
  have heff := h
  cases h with
  | tableCreated => exact .boundNew rfl rfl rfl rfl ⟨.empty, rfl, rfl⟩
  | counterReset =>
      exact .apart rfl (fun hf => by cases hf) rfl (heff.column_eq (hcounter (some 0)))
  | ruleAdded load store =>
      refine .changed rfl (fun hf => by cases hf) rfl store ?_
      intro calls w hget hw
      have hcalls := Tables.ofCalls?_of_load load hget hw
      exact ⟨_, RuleTable.ofCalls?_append_singleton hcalls _, rfl⟩
  | emitterAttached load attach store =>
      refine .changed rfl (fun hf => by cases hf) rfl store ?_
      intro calls w hget hw
      have hcalls := Tables.ofCalls?_of_load load hget hw
      exact ⟨_, (RuleTable.ofCalls?_append_singleton hcalls _).trans attach, rfl⟩
  | formsPrinted load => exact .apart rfl (fun hf => by cases hf) rfl rfl
  | nameTaken current lt store =>
      exact .apart rfl (fun hf => by cases hf) rfl (heff.column_eq (hcounter _))
  | noTable reads load => exact .failed rfl rfl
  | noRule load attach => exact .failed rfl rfl
  | noCounter current => exact .failed rfl rfl
  | exhausted current ge => exact .failed rfl rfl

/-- What a call does to the counter. -/
lemma counter (h : Call.Effect s call o) : Cell.counter.Effect s call o := by
  have htable : ∀ (place : Option ℕ) (n : ℕ),
      place.map (·, Tables.key) ≠ some (n, Cell.counter.key) := by
    intro place n
    cases place <;> simp [Cell.key, Tables.key, Counter.key]
  have heff := h
  cases h with
  | tableCreated =>
      exact .apart rfl (fun hf => by cases hf) rfl (heff.column_eq (htable (some 0)))
  | counterReset => exact .boundNew rfl rfl rfl rfl ⟨by decide, rfl⟩
  | ruleAdded load store =>
      exact .apart rfl (fun hf => by cases hf) rfl (heff.column_eq (htable _))
  | emitterAttached load attach store =>
      exact .apart rfl (fun hf => by cases hf) rfl (heff.column_eq (htable _))
  | formsPrinted load => exact .apart rfl (fun hf => by cases hf) rfl rfl
  | @nameTaken n u current lt store =>
      refine .changed rfl (fun hf => by cases hf) rfl store ?_
      intro calls w hget hw
      obtain ⟨hlt, rfl⟩ := Counter.eq_ofNat_of_current current hget hw
      rw [UInt64.toNat_ofNat_of_lt' hlt] at lt
      refine ⟨by simpa using lt, ?_⟩
      rw [List.length_append, List.length_singleton, UInt64.ofNat_add]
      rfl
  | noTable reads load => exact .failed rfl rfl
  | noRule load attach => exact .failed rfl rfl
  | noCounter current => exact .failed rfl rfl
  | exhausted current ge => exact .failed rfl rfl

/-- What a call does to a cell. -/
lemma cell (h : Call.Effect s call o) (c : Cell) : c.Effect s call o := by
  cases c with
  | table => exact h.table
  | counter => exact h.counter

end Call.Effect

/-! ### Along a history -/

namespace History

variable {c : Cell} {past : History} {s : Scope}

/-- The scope keeps the cell just in the open frames in which it was set up, as the changes that
belong to the latest set-up there have made it. -/
def Keeps (c : Cell) (past : History) (s : Scope) : Prop :=
  s.Marked (fun i v => c.Holds (changes c i past) v) c.key (past.map (Entry.move c))

namespace Keeps

/-- An entry that changes no cell leaves what the marks stand for. -/
lemma imp (h : Keeps c past s) {entry : Entry} (hentry : entry.change? c = none) :
    s.Marked (fun i v => c.Holds (changes c i (entry :: past)) v) c.key
      (past.map (Entry.move c)) := by
  refine Scope.Marked.imp h ?_
  intro i v _ hv
  rw [changes_cons_of_none hentry]
  exact hv

/-- A call that fails is no move and no change. -/
lemma failed (h : Keeps c past s) (op : Operation) (e : TemplateError) :
    Keeps c (⟨op, .error e⟩ :: past) s := by
  have hnone : Entry.change? c ⟨op, .error e⟩ = none := by cases op <;> rfl
  have hstay : Entry.move c ⟨op, .error e⟩ = .stay := by cases op <;> rfl
  rw [Keeps, List.map_cons, hstay]
  exact (h.imp hnone).stay rfl

/-- A call keeps a cell as its effect on the cell says. -/
lemma of_effect (h : Keeps c past s) {f : TemplateFunction} {args : List String} {call : Call}
    {o : Outcome String} (hargs : Call.ofArgs? f args = some call) (heff : c.Effect s call o) :
    Keeps c (⟨.call f args, o.result⟩ :: past) o.scope := by
  have hf := Call.function_of_ofArgs? hargs
  cases heff with
  | failed result scope =>
      rw [result, scope]
      exact h.failed _ _
  | boundNew result isSetUp isChange scope holds =>
      have hnone : Entry.change? c ⟨.call f args, o.result⟩ = none := by
        simp [Entry.change?, result, hargs, isChange]
      have hbind : Entry.move c ⟨.call f args, o.result⟩ = .bind := by
        simp [Entry.move, result, ← hf, isSetUp]
      rw [Keeps, List.map_cons, hbind, scope]
      refine (h.imp hnone).bind ?_
      -- the new set-up is known by the length of the history, where nothing belongs to it yet
      rw [changes_cons_of_none hnone, List.length_map, changes_of_length_le (Nat.le_refl _)]
      exact holds
  | changed result isSetUp isChange store holds =>
      have hsome : Entry.change? c ⟨.call f args, o.result⟩ = some call := by
        simp [Entry.change?, result, hargs, isChange]
      have hstay : Entry.move c ⟨.call f args, o.result⟩ = .stay := by
        simp [Entry.move, result, ← hf, isSetUp]
      have hget := Scope.Marked.rel_get? h
      rw [Keeps, List.map_cons, hstay]
      refine Scope.Marked.write h store ?_ ?_
      · intro i hi
        rw [hi] at hget
        generalize hw : s.get? c.key = w at hget
        cases hget with
        | some hold =>
            rw [changes_cons_of_owner? hi, hsome]
            exact holds _ _ hw hold
      · intro i w hi hold
        rw [changes_cons_of_ne hi]
        exact hold
  | apart result isSetUp isChange column =>
      have hnone : Entry.change? c ⟨.call f args, o.result⟩ = none := by
        simp [Entry.change?, result, hargs, isChange]
      have hstay : Entry.move c ⟨.call f args, o.result⟩ = .stay := by
        simp [Entry.move, result, ← hf, isSetUp]
      rw [Keeps, List.map_cons, hstay]
      exact (h.imp hnone).stay column

/-- One more operation keeps the cell as the history says then. -/
lemma step (h : Keeps c past s) (op : Operation) :
    Keeps c (⟨op, (op.act s).result⟩ :: past) (op.act s).scope := by
  cases op with
  | push =>
      have hnone : Entry.change? c ⟨.push, .ok ""⟩ = none := rfl
      exact (h.imp hnone).enter
  | pop =>
      cases hpop : s.pop? with
      | none =>
          have hpopped : Action.pop s = ⟨.error .scopeUnderflow, s, []⟩ := by
            simp [Action.pop, hpop]
          have hact : Operation.pop.act s = ⟨.error .scopeUnderflow, s, []⟩ :=
            Action.bind_of_error hpopped
          rw [hact]
          exact h.failed _ _
      | some t =>
          have hpopped : Action.pop s = ⟨.ok (), t, [.leftFrame t.depth]⟩ := by
            simp [Action.pop, hpop]
          have hact : Operation.pop.act s = ⟨.ok "", t, [.leftFrame t.depth]⟩ :=
            Action.bind_of_ok hpopped
          have hnone : Entry.change? c ⟨.pop, .ok ""⟩ = none := rfl
          rw [hact]
          exact (h.imp hnone).leave hpop
  | call f args =>
      rw [Operation.act]
      rcases f.invoke_cases args s with hinv | ⟨call, o, hargs, heff, hinv⟩
      · rw [hinv]
        exact h.failed _ _
      · have hkeeps := h.of_effect hargs (heff.cell c)
        rw [hinv]
        exact hkeeps

end Keeps

/-- Along every history a scope keeps its cells as the history says. -/
theorem keeps_behind (c : Cell) (ops : List Operation) :
    Keeps c (History.of ops) (Scope.behind ops) := by
  induction ops with
  | nil => exact Scope.marked_root _ _
  | cons op earlier ih => exact ih.step op

/-- What the key of a cell means behind a history: what the changes have made that belong to the
set-up that a call would belong to now. -/
lemma rel_get? (c : Cell) (ops : List Operation) :
    Option.Rel (fun i v => c.Holds (changes c i (History.of ops)) v) (owner? c (History.of ops))
      ((Scope.behind ops).get? c.key) :=
  (keeps_behind c ops).rel_get?

end History

end RuleScript
