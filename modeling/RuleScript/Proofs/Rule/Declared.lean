import Mathlib.Data.List.Induction
import RuleScript.Proofs.Template.Effect

/-!
Tables made by declarations, and what their rules are then, told from the declarations alone.

* `Declaration`, `Declaration.declare`: a rule or an emitter, and what comes of declaring it in a table;
  an emitter for a name that no rule has is an error, and leaves the table as it was;
* `RuleTable.declared`: the table that some declarations make of the empty one;
* `Declaration.rulesOf`: the rules in closed form. A rule that is the first of its name has the last of
  the emitters that were declared for the name behind it, and any other one has none;
* `rulesOf_concat_rule`, `rulesOf_concat_emitter`: one more declaration does to the closed form what it
  does to a table, and so the two are the same (`rules_declared_eq`);
* `RuleTable.rules_declared`: each rule in its place.
-/

namespace RuleScript

/-! ### Declarations -/

/-- What a table is made by. -/
inductive Declaration where
  | rule (name pattern : String)
  | emitter (name text : String)

namespace Declaration

/-- Declares a rule or an emitter in a table. -/
def declare : Declaration → RuleTable → Except TemplateError RuleTable
  | rule name pattern, t => .ok (t.withRule name pattern)
  | emitter name text, t =>
    match t.withEmitter? name text with
    | some u => .ok u
    | none => .error (.ruleNotFound name)

/-- The table behind a declaration: one that fails leaves it as it was. -/
def behind (t : RuleTable) (d : Declaration) : RuleTable :=
  match d.declare t with
  | .ok u => u
  | .error _ => t

/-- The name and the pattern of a rule. -/
def rule? : Declaration → Option (String × String)
  | rule name pattern => some (name, pattern)
  | emitter .. => none

/-- The names of the rules among some declarations. -/
def ruleNames (ds : List Declaration) : List String := (ds.filterMap rule?).map Prod.fst

/-- The text of the last emitter for a name among some declarations. -/
def lastEmitter? (name : String) : List Declaration → Option String
  | [] => none
  | rule .. :: rest => lastEmitter? name rest
  | emitter n text :: rest => (lastEmitter? name rest).or (if n = name then some text else none)

/-- The rules that some declarations make, where some names have had a rule before. -/
def rulesOf (earlier : List String) : List Declaration → List Rule
  | [] => []
  | rule name pattern :: rest =>
    ⟨name, pattern, if name ∈ earlier then none else lastEmitter? name rest⟩ ::
      rulesOf (name :: earlier) rest
  | emitter .. :: rest => rulesOf earlier rest

/-- The call that makes a declaration in the table of a scope. -/
def call : Declaration → Call
  | rule name pattern => .addRule name pattern
  | emitter name text => .addEmitter name text

end Declaration

/-- The table that some declarations make of the empty one, one after another. -/
def RuleTable.declared (ds : List Declaration) : RuleTable := ds.foldl Declaration.behind .empty

namespace Declaration

variable {earlier : List String} {ds before after : List Declaration} {name pattern text : String}

@[simp] lemma ruleNames_nil : ruleNames [] = [] := rfl

@[simp] lemma ruleNames_cons_rule (name pattern : String) (ds : List Declaration) :
    ruleNames (rule name pattern :: ds) = name :: ruleNames ds := rfl

@[simp] lemma ruleNames_cons_emitter (name text : String) (ds : List Declaration) :
    ruleNames (emitter name text :: ds) = ruleNames ds := rfl

/-! ### One more declaration -/

lemma lastEmitter?_concat_rule (other name pattern : String) (ds : List Declaration) :
    lastEmitter? other (ds ++ [rule name pattern]) = lastEmitter? other ds := by
  induction ds with
  | nil => rfl
  | cons d ds ih => cases d <;> simp only [List.cons_append, lastEmitter?, ih]

lemma lastEmitter?_concat_emitter (other name text : String) (ds : List Declaration) :
    lastEmitter? other (ds ++ [emitter name text]) =
      if name = other then some text else lastEmitter? other ds := by
  induction ds with
  | nil => simp [lastEmitter?]
  | cons d ds ih =>
      cases d with
      | rule n p => simp only [List.cons_append, lastEmitter?, ih]
      | emitter n x =>
          rw [List.cons_append, lastEmitter?, lastEmitter?, ih]
          split <;> simp

/-- A rule that is declared last stands at the end and has no emitter. -/
lemma rulesOf_concat_rule (earlier : List String) (ds : List Declaration) (name pattern : String) :
    rulesOf earlier (ds ++ [rule name pattern]) =
      rulesOf earlier ds ++ [.plain name pattern] := by
  induction ds generalizing earlier with
  | nil => simp [rulesOf, lastEmitter?, Rule.plain]
  | cons d ds ih =>
      cases d with
      | rule n p => simp only [List.cons_append, rulesOf, lastEmitter?_concat_rule, ih]
      | emitter n x => simp only [List.cons_append, rulesOf, ih]

/-- An emitter that is declared last goes to the first rule of its name, if there is one here and
there was none before. -/
lemma rulesOf_concat_emitter (earlier : List String) (ds : List Declaration) (name text : String) :
    rulesOf earlier (ds ++ [emitter name text]) =
      if name ∈ earlier then rulesOf earlier ds
      else (attachFirst? name text (rulesOf earlier ds)).getD (rulesOf earlier ds) := by
  induction ds generalizing earlier with
  | nil => simp [rulesOf, attachFirst?]
  | cons d ds ih =>
      cases d with
      | emitter n x => simp only [List.cons_append, rulesOf, ih]
      | rule n p =>
          rw [List.cons_append, rulesOf, rulesOf, ih, lastEmitter?_concat_emitter]
          by_cases hn : name = n
          · -- the rule takes the emitter if it is the first of its name, and no later one does
            subst hn
            by_cases hearlier : name ∈ earlier
            · simp [hearlier]
            · simp [hearlier, attachFirst?, Rule.withEmitter]
          · by_cases hearlier : name ∈ earlier
            · simp [hn, hearlier]
            · have hskip : ∀ (e : Option String) (rest : List Rule),
                  attachFirst? name text (⟨n, p, e⟩ :: rest) =
                    (attachFirst? name text rest).map (⟨n, p, e⟩ :: ·) :=
                fun e rest => if_neg (Ne.symm hn)
              have hlater : name ∉ n :: earlier := by simp [hn, hearlier]
              rw [if_neg hn, if_neg hlater, if_neg hearlier, hskip]
              cases attachFirst? name text (rulesOf (n :: earlier) ds) <;> rfl

/-! ### The closed form -/

/-- A rule of the closed form stands behind those of the rules before it. -/
lemma getElem?_rulesOf (earlier : List String) (before after : List Declaration)
    (name pattern : String) :
    (rulesOf earlier (before ++ rule name pattern :: after))[(ruleNames before).length]? =
      some ⟨name, pattern,
        if name ∈ earlier ∨ name ∈ ruleNames before then none else lastEmitter? name after⟩ := by
  induction before generalizing earlier with
  | nil => simp [rulesOf]
  | cons d before ih =>
      cases d with
      | rule n p =>
          rw [ruleNames_cons_rule, List.length_cons, List.cons_append, rulesOf,
            List.getElem?_cons_succ, ih]
          simp only [List.mem_cons, or_assoc, or_left_comm]
      | emitter n x => exact ih earlier

/-- The closed form has just the rules that were declared, in their order. -/
lemma map_rulesOf (earlier : List String) (ds : List Declaration) :
    (rulesOf earlier ds).map (fun r => (r.name, r.pattern)) = ds.filterMap rule? := by
  induction ds generalizing earlier with
  | nil => rfl
  | cons d ds ih =>
      cases d with
      | rule n p => rw [rulesOf, List.map_cons, ih]; rfl
      | emitter n x => exact ih earlier

/-- An emitter finds its rule unless no rule of the table has the name. -/
lemma declare_emitter_eq_error_iff (t : RuleTable) (name text : String) (cause : TemplateError) :
    (emitter name text).declare t = .error cause ↔
      cause = .ruleNotFound name ∧ name ∉ t.rules.map Rule.name := by
  have hnone : t.withEmitter? name text = none ↔ name ∉ t.rules.map Rule.name := by
    rw [RuleTable.withEmitter?_eq_none_iff]
    simp
  cases h : t.withEmitter? name text with
  | none => simp [declare, h, hnone.1 h, eq_comm]
  | some u =>
      have hmem : name ∈ t.rules.map Rule.name := by
        by_contra hnot
        rw [hnone.2 hnot] at h
        cases h
      rw [declare, h]
      exact iff_of_false (by simp) fun hcause => hcause.2 hmem

/-- A call does to the table of a scope what its declaration does. -/
lemma result_run {s : Scope} {t : RuleTable} (h : (Tables.load s).result = .ok t)
    (d : Declaration) : (d.call.run s).result = (d.declare t).map fun _ => "" := by
  have heff := d.call.effect s
  generalize d.call.run s = o at heff
  cases d with
  | rule name pattern =>
      cases heff with
      | ruleAdded load store => rfl
      | noTable reads load =>
          rw [h] at load
          cases load
  | emitter name text =>
      cases heff with
      | emitterAttached load attach store =>
          obtain rfl := Except.ok.inj (h.symm.trans load)
          rw [declare, attach]
          rfl
      | noTable reads load =>
          rw [h] at load
          cases load
      | noRule load attach =>
          obtain rfl := Except.ok.inj (h.symm.trans load)
          rw [declare, attach]
          rfl

end Declaration

namespace RuleTable

open Declaration

lemma declared_concat (ds : List Declaration) (d : Declaration) :
    declared (ds ++ [d]) = d.behind (declared ds) := by
  simp [declared]

/-- The table that is made by some declarations has the rules of the closed form. -/
theorem rules_declared_eq (ds : List Declaration) : (declared ds).rules = rulesOf [] ds := by
  induction ds using List.reverseRecOn with
  | nil => rfl
  | append_singleton ds d ih =>
      rw [declared_concat]
      cases d with
      | rule name pattern => rw [rulesOf_concat_rule, ← ih]; rfl
      | emitter name text =>
          rw [rulesOf_concat_emitter, ← ih, if_neg (List.not_mem_nil)]
          cases h : attachFirst? name text (declared ds).rules <;>
            simp [behind, declare, withEmitter?, h]

/-- The names that rules of the table have are those that were declared for rules. -/
lemma map_name_declared (ds : List Declaration) :
    (declared ds).rules.map Rule.name = ruleNames ds := by
  rw [rules_declared_eq, ruleNames, ← map_rulesOf [] ds, List.map_map]
  rfl

/-- **The rules of a declared table.** Of the declarations that make a table one after another, an
emitter fails, and as a rule that is not found, exactly if no rule of its name was declared before,
and on a scope a call fails as its declaration does. The table has just the rules that were declared,
in their order; and a rule that is the first of its name has the last of the emitters that were
declared for the name behind it, while any other one has none. -/
theorem rules_declared (ds : List Declaration) :
    (∀ (before after : List Declaration) (name text : String),
      ds = before ++ .emitter name text :: after →
        ∀ cause, (Declaration.emitter name text).declare (declared before) = .error cause ↔
          cause = .ruleNotFound name ∧ name ∉ ruleNames before) ∧
    (∀ (d : Declaration) (s : Scope), (Tables.load s).result = .ok (declared ds) →
      (d.call.run s).result = (d.declare (declared ds)).map fun _ => "") ∧
    (declared ds).rules.map (fun r => (r.name, r.pattern)) = ds.filterMap rule? ∧
    (∀ (before after : List Declaration) (name pattern : String),
      ds = before ++ .rule name pattern :: after →
        (declared ds).rules[(ruleNames before).length]? = some ⟨name, pattern,
          if name ∈ ruleNames before then none else lastEmitter? name after⟩) := by
  refine ⟨?_, fun d s h => result_run h d, ?_, ?_⟩
  · rintro before after name text - cause
    rw [declare_emitter_eq_error_iff, map_name_declared]
  · rw [rules_declared_eq, map_rulesOf]
  · rintro before after name pattern rfl
    rw [rules_declared_eq, getElem?_rulesOf]
    simp

/-- Of two rules of a name the first has the emitter that was declared last, and one that was
declared before there was a rule is lost. -/
theorem rules_declared_repeated :
    (declared [.emitter "A" "early", .rule "A" "p", .rule "A" "q", .emitter "A" "e",
      .rule "B" "r", .emitter "A" "f"]).rules[0]? = some ⟨"A", "p", some "f"⟩ :=
  (rules_declared [.emitter "A" "early", .rule "A" "p", .rule "A" "q", .emitter "A" "e",
    .rule "B" "r", .emitter "A" "f"]).2.2.2 [.emitter "A" "early"]
      [.rule "A" "q", .emitter "A" "e", .rule "B" "r", .emitter "A" "f"] "A" "p" rfl

end RuleTable

end RuleScript
