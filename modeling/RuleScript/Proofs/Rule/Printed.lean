import RuleScript.Proofs.Template.TableHistory
import RuleScript.Proofs.Text.Lines
import RuleScript.Proofs.Text.Parts

/-!
The printed forms of a table, as far as they can be taken apart again. Nothing is escaped in them, so
it matters what the rules hold.

* `RuleTable.OneLined`: no text of the table has a new line; then its forms stand on lines of their
  own (`RuleTable.lines_forms`);
* `Rule.Separable`: besides, no space stands in the name or the pattern, and the emitter is not the
  word that is printed for none; then the form determines the rule (`Rule.form_injective`);
* `forms_legible`: what both say of the forms of a table.
-/

namespace RuleScript

/-! ### Forms of single rules -/

namespace Rule

variable {r r' : Rule}

/-- The texts that a rule holds. -/
def texts (r : Rule) : List String := r.name :: r.pattern :: r.emitter.toList

/-- The rule can be told from its form: the spaces in front of its pattern and its emitter are the
first two, and its emitter is not taken for a missing one. -/
structure Separable (r : Rule) : Prop where
  name : ' ' ∉ r.name.toList
  pattern : ' ' ∉ r.pattern.toList
  emitter : r.emitter ≠ some missingEmitter

lemma toList_form (r : Rule) :
    r.form.toList = "(define-peg ".toList ++ (r.name.toList ++ ' ' ::
      (r.pattern.toList ++ ' ' :: ((r.emitter.getD missingEmitter).toList ++ [')']))) := by
  have hform : r.form = "(define-peg " ++ r.name ++ " " ++ r.pattern ++ " " ++
      r.emitter.getD missingEmitter ++ ")" := rfl
  simp only [hform, String.toList_append, List.append_assoc]
  rfl

/-- A form has a new line only where one of the rule's texts has. -/
lemma newline_not_mem_form (h : ∀ text ∈ r.texts, '\n' ∉ text.toList) :
    '\n' ∉ r.form.toList := by
  have hname : '\n' ∉ r.name.toList := h r.name (by simp [texts])
  have hpattern : '\n' ∉ r.pattern.toList := h r.pattern (by simp [texts])
  have hemitter : '\n' ∉ (r.emitter.getD missingEmitter).toList := by
    cases he : r.emitter with
    | none => decide
    | some emitter => exact h emitter (by simp [texts, he])
  simp [toList_form, hname, hpattern, hemitter]

/-- Emitters that are not the word for a missing one are told apart by what is printed for them. -/
lemma emitter_eq_of_getD_eq {e e' : Option String} (h : e ≠ some missingEmitter)
    (h' : e' ≠ some missingEmitter) (heq : e.getD missingEmitter = e'.getD missingEmitter) :
    e = e' := by
  cases e with
  | none =>
      cases e' with
      | none => rfl
      | some emitter' =>
          obtain rfl : missingEmitter = emitter' := heq
          exact absurd rfl h'
  | some emitter =>
      cases e' with
      | none =>
          obtain rfl : emitter = missingEmitter := heq
          exact absurd rfl h
      | some emitter' => exact congrArg some heq

/-- Rules that can be told from their forms are told apart by them. -/
lemma form_injective (h : r.Separable) (h' : r'.Separable) (hform : r.form = r'.form) : r = r' := by
  have htext := congrArg String.toList hform
  rw [toList_form, toList_form, List.append_cancel_left_eq] at htext
  obtain ⟨hname, htext⟩ := Text.eq_of_append_first h.name h'.name htext
  obtain ⟨hpattern, htext⟩ := Text.eq_of_append_first h.pattern h'.pattern htext
  have hemitter := emitter_eq_of_getD_eq h.emitter h'.emitter
    (String.toList_inj.1 (List.append_cancel_right htext))
  obtain ⟨name, pattern, emitter⟩ := r
  obtain ⟨name', pattern', emitter'⟩ := r'
  obtain rfl : name = name' := String.toList_inj.1 hname
  obtain rfl : pattern = pattern' := String.toList_inj.1 hpattern
  obtain rfl : emitter = emitter' := hemitter
  rfl

end Rule

/-! ### Forms of tables -/

namespace RuleTable

variable {t u : RuleTable}

/-- No name, pattern or emitter of the table has a new line in it. -/
def OneLined (t : RuleTable) : Prop := ∀ r ∈ t.rules, ∀ text ∈ r.texts, '\n' ∉ text.toList

/-- The table can be told from its forms. -/
structure Separable (t : RuleTable) : Prop where
  oneLined : t.OneLined
  rules : ∀ r ∈ t.rules, r.Separable

/-- The forms of a table without new lines of its own are the lines behind an empty one. -/
lemma lines_forms (h : t.OneLined) : Text.lines t.forms = "" :: t.rules.map Rule.form := by
  have hforms : t.forms = "" ++ Text.newLines (t.rules.map Rule.form) := by
    rw [String.empty_append, Text.newLines, List.map_map]
    rfl
  rw [hforms]
  refine Text.lines_append_newLines (by decide) fun text htext => ?_
  obtain ⟨r, hr, rfl⟩ := List.mem_map.1 htext
  exact Rule.newline_not_mem_form (h r hr)

/-- Lists of rules that can be told from their forms are told apart by the list of these. -/
lemma rules_eq_of_map_form_eq {rules rules' : List Rule} (h : ∀ r ∈ rules, r.Separable)
    (h' : ∀ r ∈ rules', r.Separable) (heq : rules.map Rule.form = rules'.map Rule.form) :
    rules = rules' := by
  induction rules generalizing rules' with
  | nil => exact (List.map_eq_nil_iff.1 heq.symm).symm
  | cons r rules ih =>
      obtain ⟨r', rules', rfl, hr, hrules⟩ := List.map_eq_cons_iff.1 heq.symm
      have hfirst := Rule.form_injective (h r (by simp)) (h' r' (by simp)) hr.symm
      have hrest := ih (fun x hx => h x (by simp [hx])) (fun x hx => h' x (by simp [hx])) hrules.symm
      rw [hfirst, hrest]

/-- **The forms of a table are legible.** What is printed for the table that is visible are its forms.
If no text of the table has a new line, then these are, behind an empty line, one line for each rule
in their order, with the word for a missing emitter where there is none; and nothing is printed for
the empty table. If besides no name or pattern has a space and no emitter is that word, then the forms
determine the table. -/
theorem forms_legible :
    (∀ (s : Scope) (t : RuleTable), (Tables.load s).result = .ok t →
      (TemplateFunction.constructPeg.invoke [] s).result = .ok t.forms) ∧
    (∀ t : RuleTable, t.OneLined → Text.lines t.forms = "" :: t.rules.map fun r =>
      "(define-peg " ++ r.name ++ " " ++ r.pattern ++ " " ++ r.emitter.getD "undefined" ++ ")") ∧
    empty.forms = "" ∧
    (∀ t u : RuleTable, t.Separable → u.Separable → t.forms = u.forms → t = u) := by
  refine ⟨?_, fun t ht => lines_forms ht, rfl, ?_⟩
  · intro s t hload
    rw [TemplateFunction.result_constructPeg, hload]
    rfl
  · intro t u ht hu hforms
    have hlines := congrArg Text.lines hforms
    rw [lines_forms ht.oneLined, lines_forms hu.oneLined] at hlines
    have hrules := rules_eq_of_map_form_eq ht.rules hu.rules (List.cons.inj hlines).2
    obtain ⟨rules⟩ := t
    obtain ⟨rules'⟩ := u
    obtain rfl : rules = rules' := hrules
    rfl

/-- A name that comes twice, with spaces and parentheses in an emitter; and an empty emitter, which is
not taken for a missing one. -/
theorem forms_legible_repeated :
    Text.lines (RuleTable.forms ⟨[⟨"A", "(b)", some "(f x)"⟩, .plain "A" ""]⟩) =
      ["", "(define-peg A (b) (f x))", "(define-peg A  undefined)"] ∧
    RuleTable.forms ⟨[⟨"A", "", some ""⟩]⟩ ≠ RuleTable.forms ⟨[.plain "A" ""]⟩ := by
  have hlined : OneLined ⟨[⟨"A", "(b)", some "(f x)"⟩, .plain "A" ""]⟩ := by
    simp [OneLined, Rule.texts, Rule.plain]
  have hempty : Separable ⟨[⟨"A", "", some ""⟩]⟩ :=
    ⟨by simp [OneLined, Rule.texts], by simpa using ⟨by decide, by decide, by decide⟩⟩
  have hmissing : Separable ⟨[.plain "A" ""]⟩ :=
    ⟨by simp [OneLined, Rule.texts, Rule.plain], by simpa using ⟨by decide, by decide, by decide⟩⟩
  refine ⟨forms_legible.2.1 _ hlined, fun heq => ?_⟩
  exact absurd (forms_legible.2.2.2 _ _ hempty hmissing heq) (by decide)

end RuleTable

end RuleScript
