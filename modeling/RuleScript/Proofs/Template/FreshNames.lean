import RuleScript.Proofs.Template.History
import RuleScript.Proofs.Text.Parts

/-!
The names that `genvar` gives along a history: they are counted from the reset that they belong to,
the latest one in the innermost open frame in which the counter was reset.

* `Counter.numbered_injective`: names with different numbers differ;
* `History.result_genVar`: what the next call of `genvar` gives, told from the history alone;
* `History.names_count_from_reset`: the same as a count, and that no two names of one reset are the
  same, whatever lies between the calls.
-/

namespace RuleScript

/-- The name with a number. -/
def Counter.numbered (k : ℕ) : String := "v" ++ toString k

/-- Names with different numbers differ. -/
lemma Counter.numbered_injective {k l : ℕ} (h : numbered k = numbered l) : k = l :=
  Text.toString_injective ((String.append_right_inj "v").1 h)

namespace TemplateFunction

variable {s : Scope}

/-- Without a counter no name is given. -/
lemma result_genVar_of_none (h : s.get? Counter.key = none) :
    (genVar.invoke [] s).result = .error (.uninitialized Counter.key) := by
  have hcurrent : (Counter.current s).result = .error (.uninitialized Counter.key) := by
    rw [Counter.reads_current.result_eq, h]
    rfl
  rw [invoke_of_ofArgs? (c := .genVar) rfl, Call.run_genVar_of_error hcurrent]

/-- A counter that some changes have made gives the name with their number, unless it has no
successor. -/
lemma result_genVar_of_holds {v : Json.Value} {calls : List Call} (h : s.get? Counter.key = some v)
    (hv : Cell.counter.Holds calls v) :
    (genVar.invoke [] s).result =
      if calls.length + 1 < UInt64.size then .ok (Counter.numbered calls.length)
      else .error (.malformed Counter.key .exhausted) := by
  obtain ⟨hsize, rfl⟩ := hv
  have hcurrent := Counter.current_of_get? h
  have htoNat : (UInt64.ofNat calls.length).toNat = calls.length :=
    UInt64.toNat_ofNat_of_lt' hsize
  rw [invoke_of_ofArgs? (c := .genVar) rfl]
  split
  · next hlt =>
    obtain ⟨u, -, hrun⟩ := Call.exists_run_genVar hcurrent (by rw [htoNat]; exact hlt)
    rw [hrun, Counter.name, htoNat]
    rfl
  · next hge =>
    rw [Call.run_genVar_of_exhausted hcurrent (by rw [htoNat]; exact Nat.not_lt.mp hge)]

end TemplateFunction

namespace History

open TemplateFunction

/-- What the next call of `genvar` gives behind a history. -/
lemma result_genVar (ops : List Operation) :
    (genVar.invoke [] (Scope.behind ops)).result =
      match owner? .counter (History.of ops) with
      | none => .error (.uninitialized Counter.key)
      | some i =>
        let k := (changes .counter i (History.of ops)).length
        if k + 1 < UInt64.size then .ok (Counter.numbered k)
        else .error (.malformed Counter.key .exhausted) := by
  have hrel := rel_get? .counter ops
  generalize howner : owner? .counter (History.of ops) = owner at hrel
  generalize hget : (Scope.behind ops).get? Cell.counter.key = value at hrel
  cases hrel with
  | none => exact result_genVar_of_none hget
  | some hold => exact result_genVar_of_holds hget hold

/-- Every entry of a history is that of an operation behind the entries before it. -/
lemma exists_operations {ops : List Operation} {later past : History} {entry : Entry}
    (h : History.of ops = later ++ entry :: past) :
    ∃ earlier, History.of earlier = past ∧
      entry.result = (entry.operation.act (Scope.behind earlier)).result := by
  induction ops generalizing later with
  | nil => cases later <;> cases h
  | cons op earlier ih =>
      cases later with
      | nil =>
          obtain ⟨rfl, rfl⟩ := List.cons.inj h
          exact ⟨earlier, rfl, rfl⟩
      | cons _ later => exact ih (List.cons.inj h).2

/-- A name that was given is numbered by the names before it that belong to the same reset. -/
lemma eq_numbered_of_genVar {ops : List Operation} {later past : History} {args : List String}
    {x : String} (h : History.of ops = later ++ ⟨.call .genVar args, .ok x⟩ :: past) :
    ∃ i, owner? .counter past = some i ∧ x = Counter.numbered (changes .counter i past).length ∧
      changes .counter i (⟨.call .genVar args, .ok x⟩ :: past) =
        changes .counter i past ++ [.genVar] := by
  obtain ⟨earlier, rfl, hresult⟩ := exists_operations h
  have hargs : args = [] := by
    cases args with
    | nil => rfl
    | cons arg args =>
        rw [Operation.act, invoke_of_not_fit rfl] at hresult
        cases hresult
  subst hargs
  rw [Operation.act, result_genVar] at hresult
  cases howner : owner? .counter (History.of earlier) with
  | none => rw [howner] at hresult; cases hresult
  | some i =>
      simp only [howner] at hresult
      split at hresult
      · exact ⟨i, rfl, Except.ok.inj hresult, changes_cons_of_owner? howner⟩
      · cases hresult

/-- **Names are counted from their reset.** Along every history of calls, entering and leaving, a
call of `genvar` finds no counter exactly if no open frame has one that was reset in it, and
otherwise gives the number of names that belong to the same reset already, as long as that number
has a successor. So two names that belong to the same reset are different, whatever was done between
them. -/
theorem names_count_from_reset (ops : List Operation) :
    ((genVar.invoke [] (Scope.behind ops)).result = .error (.uninitialized "variable") ↔
      owner? .counter (History.of ops) = none) ∧
    (∀ i, owner? .counter (History.of ops) = some i →
      (changes .counter i (History.of ops)).length < 2 ^ 64 - 1 →
      (genVar.invoke [] (Scope.behind ops)).result =
        .ok ("v" ++ toString (changes .counter i (History.of ops)).length)) ∧
    (∀ (later between past : History) (args args' : List String) (x y : String),
      History.of ops = later ++ ⟨.call .genVar args, .ok x⟩ ::
        (between ++ ⟨.call .genVar args', .ok y⟩ :: past) →
      owner? .counter (between ++ ⟨.call .genVar args', .ok y⟩ :: past) =
        owner? .counter past → x ≠ y) := by
  have hnext := result_genVar ops
  refine ⟨?_, ?_, ?_⟩
  · rw [hnext]
    cases owner? .counter (History.of ops) with
    | none => exact iff_of_true rfl rfl
    | some i =>
        refine iff_of_false ?_ (by simp)
        dsimp only
        split <;> intro h <;> cases h
  · intro i hi hlt
    have hsize : (changes .counter i (History.of ops)).length + 1 < UInt64.size := by
      rw [UInt64.size]
      omega
    simp only [hnext, hi, if_pos hsize]
    rfl
  · intro later between past args args' x y h howner
    obtain ⟨i, hi, hx, -⟩ := eq_numbered_of_genVar h
    have hearlier : History.of ops = (later ++ ⟨.call .genVar args, .ok x⟩ :: between) ++
        ⟨.call .genVar args', .ok y⟩ :: past := by
      rw [h, List.append_assoc]
      rfl
    obtain ⟨j, hj, hy, hchanges⟩ := eq_numbered_of_genVar hearlier
    obtain rfl : i = j := Option.some.inj (by rw [← hi, howner, hj])
    have hprefix := (changes_prefix_append .counter i between
      (⟨.call .genVar args', .ok y⟩ :: past)).length_le
    rw [hchanges, List.length_append, List.length_singleton] at hprefix
    rintro rfl
    have hnumber := Counter.numbered_injective (hx.symm.trans hy)
    omega

/-- The counter of an outer frame goes on where it stood when a frame with a counter of its own has
been left. -/
theorem names_count_from_reset_nested :
    (genVar.invoke [] (Scope.behind [.pop, .call .genVar [], .call .resetVariables [], .push,
      .call .genVar [], .call .resetVariables []])).result = .ok "v1" :=
  (names_count_from_reset [.pop, .call .genVar [], .call .resetVariables [], .push,
    .call .genVar [], .call .resetVariables []]).2.1 0 rfl (by decide)

end History

end RuleScript
