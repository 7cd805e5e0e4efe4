import Mathlib.Tactic.Common

/-!
The lines of a text: the pieces between its new lines.

* `Text.lines`: the pieces, and `length_lines`, which counts them;
* `Text.newLines`: some texts, each on a new line, and `lines_append_newLines`, which finds them again
  if none of them has a new line of its own.
-/

namespace RuleScript.Text

/-- The lines of a text. -/
def lines (s : String) : List String := (s.toList.splitOn '\n').map String.ofList

/-- Every new line begins one more line. -/
lemma length_lines (s : String) : (lines s).length = s.toList.count '\n' + 1 := by
  have hpieces : ∀ cs : List Char, (cs.splitOn '\n').length = cs.count '\n' + 1 := by
    intro cs
    induction cs with
    | nil => rfl
    | cons c cs ih =>
        rw [List.splitOn] at ih ⊢
        rw [List.splitOnP_cons_eq_if_modifyHead, List.count_cons]
        split
        · rw [List.length_cons, ih]
        · rw [List.length_modifyHead, ih, Nat.add_zero]
  rw [lines, List.length_map, hpieces]

/-- A text without a new line is a single line. -/
lemma lines_of_not_mem {s : String} (h : '\n' ∉ s.toList) : lines s = [s] := by
  rw [lines, List.splitOn_eq_singleton h, List.map_singleton, String.ofList_toList]

/-- A text without a new line is the first line of what it begins, up to a new line. -/
lemma lines_append_newline {s : String} (h : '\n' ∉ s.toList) (rest : String) :
    lines (s ++ "\n" ++ rest) = s :: lines rest := by
  have hplain : ∀ c ∈ s.toList, (c == '\n') = false := by
    intro c hc
    refine beq_false_of_ne ?_
    rintro rfl
    exact h hc
  have hcut : (s ++ "\n" ++ rest).toList = s.toList ++ '\n' :: rest.toList := by simp
  rw [lines, hcut, List.splitOn,
    List.splitOnP_append_cons_of_forall_mem hplain '\n' (beq_self_eq_true _), List.map_cons,
    String.ofList_toList]
  rfl

/-! ### Texts on lines of their own -/

/-- Texts, each on a new line. -/
def newLines (texts : List String) : String := String.join (texts.map ("\n" ++ ·))

lemma newLines_cons (text : String) (texts : List String) :
    newLines (text :: texts) = "\n" ++ text ++ newLines texts := by
  simp [newLines]

lemma newLines_append (before after : List String) :
    newLines (before ++ after) = newLines before ++ newLines after := by
  simp [newLines]

/-- Texts without a new line of their own are the lines that they are written on. -/
lemma lines_append_newLines {first : String} {texts : List String} (hfirst : '\n' ∉ first.toList)
    (htexts : ∀ text ∈ texts, '\n' ∉ text.toList) :
    lines (first ++ newLines texts) = first :: texts := by
  induction texts generalizing first with
  | nil =>
      rw [newLines, List.map_nil, String.join_nil, String.append_empty, lines_of_not_mem hfirst]
  | cons text texts ih =>
      have htext := ih (htexts text (by simp)) fun t ht => htexts t (by simp [ht])
      rw [newLines_cons, String.append_assoc, ← String.append_assoc,
        lines_append_newline hfirst, htext]

end RuleScript.Text
