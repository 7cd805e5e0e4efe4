import RuleScript.Proofs.Json.IndentedReadBack
import RuleScript.Proofs.Json.Merged
import RuleScript.Proofs.Template.Reading
import RuleScript.Proofs.Text.Lines
import RuleScript.Rule.Export

/-!
The text that a table is exported as.

* `newline_not_mem_quote`: a quoted text stands on one line, whatever it holds;
* `Rule.exportedLines`, `linesOfRules`: the five lines of a rule and those of all rules, and
  `lines_exported`, which finds them in the exported text;
* `parse?_exported`: the text is read back as the value that the table is kept under;
* `exported_faithful`: tables are told apart by their text, and every member of a rule stands on a
  line of its own there.
-/

namespace RuleScript

open RuleScript.Json (Value quote escaped newline ReadsIndented)
open RuleScript.Text (lines newLines newLines_cons newLines_append lines_append_newLines)

/-! ### Quoted texts stand on one line -/

lemma newline_not_mem_controlEscape {n : ℕ} (h : n < 0x20) :
    '\n' ∉ (Json.controlEscape n).toList := by
  have hdigit : ∀ d < 16, '\n' ≠ Text.hexDigit d := by decide
  have hhigh := hdigit (n / 16) (by omega)
  have hlow := hdigit (n % 16) (Nat.mod_lt n (by decide))
  simp [Json.controlEscape, hhigh, hlow]

/-- No character is escaped with a new line in it. -/
lemma newline_not_mem_escaped (c : Char) : '\n' ∉ (escaped c).toList := by
  unfold escaped
  split
  · decide
  · decide
  · decide
  · decide
  · decide
  · decide
  · decide
  · next hnewline _ _ =>
    split
    · next hlt => exact newline_not_mem_controlEscape hlt
    · simpa using Ne.symm hnewline

/-- A quoted text has no new line, whatever it holds. -/
lemma newline_not_mem_quote (s : String) : '\n' ∉ (quote s).toList := by
  simp [quote, String.toList_join, newline_not_mem_escaped]

/-! ### The lines of a table -/

/-- What is written for an emitter. -/
def Rule.emitterText (r : Rule) : String := r.emitter.elim "null" quote

/-- The lines of a rule. -/
def Rule.exportedLines (r : Rule) (closing : String) : List String :=
  ["    \x7b",
    "        \"name\": " ++ quote r.name ++ ",",
    "        \"pattern\": " ++ quote r.pattern ++ ",",
    "        \"emitter\": " ++ r.emitterText,
    closing]

/-- The lines of some rules, with a comma behind the closing brace of each but the last. -/
def linesOfRules : List Rule → List String
  | [] => []
  | [r] => r.exportedLines "    \x7d"
  | r :: next :: rest => r.exportedLines "    \x7d," ++ linesOfRules (next :: rest)

lemma linesOfRules_cons (r : Rule) (rest : List Rule) :
    ∃ closing, '\n' ∉ closing.toList ∧
      linesOfRules (r :: rest) = r.exportedLines closing ++ linesOfRules rest := by
  cases rest with
  | nil => exact ⟨"    \x7d", by decide, by simp [linesOfRules]⟩
  | cons next rest => exact ⟨"    \x7d,", by decide, rfl⟩

lemma length_linesOfRules (rules : List Rule) :
    (linesOfRules rules).length = 5 * rules.length := by
  induction rules with
  | nil => rfl
  | cons r rest ih =>
      obtain ⟨closing, -, hlines⟩ := linesOfRules_cons r rest
      have hfive : (r.exportedLines closing).length = 5 := rfl
      rw [hlines, List.length_append, hfive, ih, List.length_cons]
      omega

/-- The lines of a rule are found behind those of the rules before it. -/
lemma getElem?_linesOfRules {rules : List Rule} {i : ℕ} {r : Rule} (h : rules[i]? = some r) :
    ∃ closing, ∀ k < 5, (linesOfRules rules)[5 * i + k]? = (r.exportedLines closing)[k]? := by
  induction rules generalizing i with
  | nil => simp at h
  | cons first rest ih =>
      obtain ⟨closing, -, hlines⟩ := linesOfRules_cons first rest
      have hfive : (first.exportedLines closing).length = 5 := rfl
      rw [hlines]
      cases i with
      | zero =>
          obtain rfl : first = r := by simpa using h
          refine ⟨closing, fun k hk => ?_⟩
          rw [Nat.mul_zero, Nat.zero_add, List.getElem?_append_left (hfive ▸ hk)]
      | succ i =>
          obtain ⟨last, hlast⟩ := ih (by simpa using h)
          refine ⟨last, fun k hk => ?_⟩
          have hplace : 5 * (i + 1) + k - 5 = 5 * i + k := by omega
          rw [List.getElem?_append_right (by omega), hfive, hplace]
          exact hlast k hk

lemma Rule.newline_not_mem_emitterText (r : Rule) : '\n' ∉ r.emitterText.toList := by
  rw [emitterText]
  cases r.emitter with
  | none => decide
  | some emitter => exact newline_not_mem_quote emitter

/-- A line has no new line of its own. -/
lemma newline_not_mem_linesOfRules (rules : List Rule) :
    ∀ line ∈ linesOfRules rules, '\n' ∉ line.toList := by
  induction rules with
  | nil => simp [linesOfRules]
  | cons r rest ih =>
      obtain ⟨closing, hclosing, hlines⟩ := linesOfRules_cons r rest
      have hrule : ∀ line ∈ r.exportedLines closing, '\n' ∉ line.toList := by
        simp [Rule.exportedLines, newline_not_mem_quote, r.newline_not_mem_emitterText, hclosing]
      rw [hlines]
      exact List.forall_mem_append.2 ⟨hrule, ih⟩

/-! ### The layout of the text -/

/-- The text of a rule stands on its lines, with whatever is written behind the brace. -/
lemma Rule.prettyAt_toValue (r : Rule) (behind : String) :
    newline 1 ++ r.toValue.prettyAt 1 ++ behind =
      newLines (r.exportedLines ("    \x7d" ++ behind)) := by
  have hbrace : newline 1 = "\n    " := by decide
  have hmember : newline 2 = "\n        " := by decide
  have hname : quote "name" = "\"name\"" := by decide
  have hpattern : quote "pattern" = "\"pattern\"" := by decide
  have hemitter : quote "emitter" = "\"emitter\"" := by decide
  have hvalue : (Rule.emitterValue r.emitter).prettyAt 2 = r.emitterText := by
    rw [emitterText]
    cases r.emitter with
    | none => rw [emitterValue, Value.prettyAt, Value.compact]; rfl
    | some emitter => rw [emitterValue, Value.prettyAt]; rfl
  apply String.toList_inj.1
  simp [toValue, Value.prettyAt, Json.prettyMembers, hvalue, hbrace, hmember, hname, hpattern,
    hemitter, exportedLines, newLines]

/-- The items of the exported array stand on the lines of the rules. -/
lemma prettyItems_toValue (rules : List Rule) :
    Json.prettyItems 0 (rules.map Rule.toValue) = newLines (linesOfRules rules) := by
  induction rules with
  | nil => rfl
  | cons r rest ih =>
      cases rest with
      | nil =>
          have hlast := r.prettyAt_toValue ""
          rw [String.append_empty, String.append_empty] at hlast
          exact hlast
      | cons next rest =>
          rw [List.map_cons] at ih
          rw [List.map_cons, List.map_cons, Json.prettyItems, Nat.zero_add, r.prettyAt_toValue ",",
            ih, linesOfRules, newLines_append]
          rfl

namespace RuleTable

lemma exported_of_nil {t : RuleTable} (h : t.rules = []) : t.exported = "[]" := by
  rw [exported, toValue, h, List.map_nil, Value.pretty, Value.prettyAt]

lemma exported_of_ne_nil {t : RuleTable} (h : t.rules ≠ []) :
    t.exported = "[" ++ newLines (linesOfRules t.rules ++ ["]"]) := by
  have hlast : newLines ["]"] = newline 0 ++ "]" := by decide
  obtain ⟨r, rest, hrules⟩ := List.exists_cons_of_ne_nil h
  rw [newLines_append, hlast, ← prettyItems_toValue, exported, toValue, hrules, Value.pretty,
    List.map_cons, Value.prettyAt, String.append_assoc, String.append_assoc]

/-- The lines of the exported text. -/
lemma lines_exported {t : RuleTable} (h : t.rules ≠ []) :
    lines t.exported = "[" :: (linesOfRules t.rules ++ ["]"]) := by
  rw [exported_of_ne_nil h]
  refine lines_append_newLines (by decide) ?_
  exact List.forall_mem_append.2 ⟨newline_not_mem_linesOfRules _, by decide⟩

/-- The exported text breaks five times for every rule, and once for the closing bracket. -/
lemma count_newline_exported {t : RuleTable} (h : t.rules ≠ []) :
    t.exported.toList.count '\n' = 5 * t.size + 1 := by
  have hlength := Text.length_lines t.exported
  rw [lines_exported h, List.length_cons, List.length_append, length_linesOfRules,
    List.length_singleton] at hlength
  rw [size]
  omega

/-- Where the lines of a rule stand in the exported text. -/
lemma getElem?_lines_exported {t : RuleTable} {i : ℕ} {r : Rule} (h : t.rules[i]? = some r) :
    ∃ closing, ∀ k < 5,
      (lines t.exported)[5 * i + k + 1]? = (r.exportedLines closing)[k]? := by
  obtain ⟨closing, hlines⟩ := getElem?_linesOfRules h
  have hne : t.rules ≠ [] := by
    intro hnil
    simp [hnil] at h
  have hlt : i < t.rules.length := (List.getElem?_eq_some_iff.1 h).1
  refine ⟨closing, fun k hk => ?_⟩
  rw [lines_exported hne, List.getElem?_cons_succ, List.getElem?_append_left, hlines k hk]
  rw [length_linesOfRules]
  omega

end RuleTable

/-! ### The text read back -/

lemma Rule.readsIndented_toValue (r : Rule) : ReadsIndented r.toValue := by
  have hemitter : ReadsIndented (emitterValue r.emitter) := by
    cases r.emitter with
    | none => exact Json.readsIndented_null
    | some emitter => exact Json.readsIndented_string emitter
  refine Json.readsIndented_object ?_
  simp [Json.readsIndented_string, hemitter]

lemma Rule.depth_toValue (r : Rule) : r.toValue.depth = 1 := by
  have hemitter : (emitterValue r.emitter).depth = 0 := by
    cases r.emitter <;> simp only [emitterValue, Value.depth]
  simp only [toValue, Value.depth, Json.depthOfMembers, hemitter]
  rfl

/-- A rule repeats no key: its three keys differ. -/
lemma Rule.keysDistinct_toValue (r : Rule) : r.toValue.KeysDistinct := by
  have hemitter : (emitterValue r.emitter).KeysDistinct := by
    cases r.emitter with
    | none => exact .null
    | some emitter => exact .string emitter
  refine .object (by simp) ?_
  simp [Value.KeysDistinct.string, hemitter]

namespace RuleTable

lemma depth_toValue_le (t : RuleTable) : t.toValue.depth ≤ 2 := by
  have hitems : ∀ rules : List Rule, Json.depthOfItems (rules.map Rule.toValue) ≤ 1 := by
    intro rules
    induction rules with
    | nil => exact Nat.zero_le 1
    | cons r rest ih =>
        rw [List.map_cons, Json.depthOfItems, r.depth_toValue]
        exact Nat.max_le.2 ⟨Nat.le_refl 1, ih⟩
  rw [toValue, Value.depth]
  exact Nat.add_le_add_left (hitems t.rules) 1

/-- The exported text is read back as the value that the table is kept under. -/
lemma parse?_exported (t : RuleTable) : Json.parse? t.exported = some t.toValue := by
  have hreads : ReadsIndented t.toValue := by
    refine Json.readsIndented_array ?_
    intro v hv
    obtain ⟨r, -, rfl⟩ := List.mem_map.1 hv
    exact r.readsIndented_toValue
  have hmerged : t.toValue.merged = t.toValue := by
    refine Json.merged_of_keysDistinct (.array ?_)
    intro v hv
    obtain ⟨r, -, rfl⟩ := List.mem_map.1 hv
    exact r.keysDistinct_toValue
  have hdepth : t.toValue.depth ≤ Json.Reader.maxDepth :=
    Nat.le_trans t.depth_toValue_le (by decide)
  rw [Json.parse?, exported, Json.read_pretty hreads hdepth, hmerged]

/-- Tables with one exported text are equal. -/
lemma exported_injective : Function.Injective exported := by
  intro t u h
  have hvalue : t.toValue = u.toValue := by
    refine Option.some.inj ?_
    rw [← parse?_exported, h, parse?_exported]
  have hread := ofValue_toValue t
  rw [hvalue, ofValue_toValue] at hread
  exact (Except.ok.inj hread).symm

/-- **The exported text is faithful.** It is read back as the value that storing the table writes,
of which loading makes the table again, so that two tables never share a text. Without rules it is
an empty array; otherwise it breaks five times for every rule and once more, and the members of the
rule at place `i` stand on the lines at `5 * i + 2`, `5 * i + 3` and `5 * i + 4`, counted from 0,
whatever new lines the rules hold. -/
theorem exported_faithful (t : RuleTable) :
    (∃ v, Json.parse? t.exported = some v ∧
      (∀ s, s.get? Tables.key ≠ none →
        ∃ u, Tables.store t s = ⟨.ok (), u, []⟩ ∧ u.get? Tables.key = some v) ∧
      (∀ s, s.get? Tables.key = some v → (Tables.load s).result = .ok t)) ∧
    (∀ u : RuleTable, u.exported = t.exported → u = t) ∧
    (t.rules = [] → t.exported = "[]") ∧
    (t.rules ≠ [] → t.exported.toList.count '\n' = 5 * t.size + 1) ∧
    (∀ i r, t.rules[i]? = some r →
      (lines t.exported)[5 * i + 2]? = some ("        \"name\": " ++ quote r.name ++ ",") ∧
      (lines t.exported)[5 * i + 3]? =
        some ("        \"pattern\": " ++ quote r.pattern ++ ",") ∧
      (lines t.exported)[5 * i + 4]? =
        some ("        \"emitter\": " ++ r.emitter.elim "null" quote)) := by
  refine ⟨⟨t.toValue, t.parse?_exported, fun s h => Tables.store_of_get? h t,
    fun s h => Tables.load_of_get? h⟩, fun u h => exported_injective h, exported_of_nil,
    count_newline_exported, ?_⟩
  intro i r h
  obtain ⟨closing, hlines⟩ := getElem?_lines_exported h
  exact ⟨hlines 1 (by decide), hlines 2 (by decide), hlines 3 (by decide)⟩

example : exported ⟨[⟨"A", "\n", none⟩]⟩ =
    "[\n    \x7b\n        \"name\": \"A\",\n        \"pattern\": \"\\n\",\n" ++
      "        \"emitter\": null\n    \x7d\n]" := by decide +kernel

end RuleTable

end RuleScript
