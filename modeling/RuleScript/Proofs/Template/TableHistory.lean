import RuleScript.Proofs.Template.History

/-!
The table that is loaded along a history: it is made by the rules and emitters that were added since
the set-up that the loading belongs to, the latest one in the innermost open frame in which a table
was set up. Tables of frames that have been left, and those that a later set-up in the same frame
has hidden, leave no trace.

* `Tables.load_of_none`, `Tables.load_of_holds`: loading and printing with and without a table;
* `History.tables_replay_changes`: what they give, told from the history alone.
-/

namespace RuleScript

variable {s : Scope}

namespace Tables

/-- Without a table there is none to load. -/
lemma load_of_none (h : s.get? key = none) : (load s).result = .error (.uninitialized key) := by
  rw [reads_load.result_eq, h]
  rfl

/-- A table that some changes have made is loaded. -/
lemma load_of_holds {v : Json.Value} {calls : List Call} (h : s.get? key = some v)
    (hv : Cell.table.Holds calls v) :
    ∃ t, RuleTable.ofCalls? calls = some t ∧ (load s).result = .ok t := by
  obtain ⟨t, ht, rfl⟩ := hv
  exact ⟨t, ht, load_of_get? h⟩

end Tables

namespace TemplateFunction

/-- Printing gives the forms of the table that is loaded, or fails as loading does. -/
lemma result_constructPeg (s : Scope) :
    (constructPeg.invoke [] s).result = (Tables.load s).result.map RuleTable.forms := by
  rw [invoke_of_ofArgs? (c := .constructPeg) rfl]
  cases h : (Tables.load s).result with
  | error e =>
      have hrun : Call.constructPeg.run s = ⟨.error e, s, []⟩ :=
        Tables.reads_load.bind_of_error h _
      rw [hrun]
      rfl
  | ok t =>
      have hrun : Call.constructPeg.run s = ⟨.ok t.forms, s, []⟩ := Tables.reads_load.bind_of_ok h _
      rw [hrun]
      rfl

end TemplateFunction

namespace History

open TemplateFunction

/-- **Tables replay their changes.** Along every history of calls, entering and leaving, no table is
found exactly if no open frame has one that was set up in it; otherwise the table that is loaded is
the one that the successful changes which belong to the set-up make of the empty table, in the order
in which they were made and each of them finding what it changes, and what is printed are its
forms. -/
theorem tables_replay_changes (ops : List Operation) :
    ((Tables.load (Scope.behind ops)).result = .error (.uninitialized "rules") ↔
      owner? .table (History.of ops) = none) ∧
    (owner? .table (History.of ops) = none →
      (constructPeg.invoke [] (Scope.behind ops)).result = .error (.uninitialized "rules")) ∧
    (∀ i, owner? .table (History.of ops) = some i →
      ∃ t, RuleTable.ofCalls? (changes .table i (History.of ops)) = some t ∧
        (Tables.load (Scope.behind ops)).result = .ok t ∧
        (constructPeg.invoke [] (Scope.behind ops)).result = .ok t.forms) := by
  have hrel := rel_get? .table ops
  rw [result_constructPeg]
  generalize howner : owner? .table (History.of ops) = owner at hrel
  generalize hget : (Scope.behind ops).get? Cell.table.key = value at hrel
  cases hrel with
  | none =>
      have hload := Tables.load_of_none hget
      refine ⟨iff_of_true hload rfl, ?_, by simp⟩
      intro _
      rw [hload]
      rfl
  | @some i v hold =>
      obtain ⟨t, ht, hload⟩ := Tables.load_of_holds hget hold
      refine ⟨iff_of_false (by rw [hload]; simp) (by simp), by simp, ?_⟩
      intro j hj
      obtain rfl := Option.some.inj hj
      exact ⟨t, ht, hload, by rw [hload]; rfl⟩

/-- A rule that is added in a nested frame without a table of its own goes to the table outside, and
what was added to a table of its own is gone with the frame. The latest operation stands first. -/
theorem tables_replay_changes_nested :
    (Tables.load (Scope.behind [.pop, .call .addRule ["B", "b"], .call .createEmptyTables [],
        .call .addRule ["C", "c"], .push, .call .addRule ["A", "a"],
        .call .createEmptyTables []])).result = .ok ⟨[.plain "A" "a", .plain "C" "c"]⟩ ∧
      (constructPeg.invoke [] (Scope.behind [.pop, .call .addRule ["B", "b"],
        .call .createEmptyTables [], .call .addRule ["C", "c"], .push, .call .addRule ["A", "a"],
        .call .createEmptyTables []])).result =
          .ok "\n(define-peg A a undefined)\n(define-peg C c undefined)" := by
  obtain ⟨t, ht, hload, hprint⟩ := (tables_replay_changes [.pop, .call .addRule ["B", "b"],
    .call .createEmptyTables [], .call .addRule ["C", "c"], .push, .call .addRule ["A", "a"],
    .call .createEmptyTables []]).2.2 0 rfl
  obtain rfl : ⟨[.plain "A" "a", .plain "C" "c"]⟩ = t := Option.some.inj ht
  have hforms : RuleTable.forms ⟨[.plain "A" "a", .plain "C" "c"]⟩ =
      "\n(define-peg A a undefined)\n(define-peg C c undefined)" := by decide
  rw [hforms] at hprint
  exact ⟨hload, hprint⟩

end History

end RuleScript
