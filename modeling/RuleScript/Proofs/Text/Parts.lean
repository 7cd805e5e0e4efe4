import Mathlib.Tactic.Common

/-!
What a text was put together from.

* `Text.eq_of_append_first`, `Text.eq_of_append_last`: a text is cut at the first or at the last of its
  characters of one kind, and there is only one way to do so;
* `Text.Apart`: two texts of which neither begins like the other, and so nothing that begins like the
  one begins like the other;
* `Text.toString_injective`, `Text.isDigit_of_mem_toString`: a number is told from its digits, and
  written in nothing else.
-/

namespace RuleScript.Text

/-! ### Cut at a character -/

section Cut

variable {c : Char} {first first' rest rest' : List Char}

/-- What stands in front of the first character of a kind is determined, and so is what stands
behind it. -/
lemma eq_of_append_first (hfirst : c ∉ first) (hfirst' : c ∉ first')
    (h : first ++ c :: rest = first' ++ c :: rest') : first = first' ∧ rest = rest' := by
  induction first generalizing first' with
  | nil =>
      cases first' with
      | nil => exact ⟨rfl, (List.cons.inj h).2⟩
      | cons d first' =>
          obtain rfl := (List.cons.inj h).1
          exact absurd List.mem_cons_self hfirst'
  | cons d first ih =>
      cases first' with
      | nil =>
          obtain rfl := (List.cons.inj h).1
          exact absurd List.mem_cons_self hfirst
      | cons d' first' =>
          obtain ⟨rfl, htail⟩ := List.cons.inj h
          obtain ⟨rfl, hrest⟩ := ih (fun hc => hfirst (List.mem_cons_of_mem _ hc))
            (fun hc => hfirst' (List.mem_cons_of_mem _ hc)) htail
          exact ⟨rfl, hrest⟩

/-- So is what stands in front of the last one, and behind it. -/
lemma eq_of_append_last (hrest : c ∉ rest) (hrest' : c ∉ rest')
    (h : first ++ c :: rest = first' ++ c :: rest') : first = first' ∧ rest = rest' := by
  have hreverse : rest.reverse ++ c :: first.reverse = rest'.reverse ++ c :: first'.reverse := by
    simpa using congrArg List.reverse h
  obtain ⟨hr, hf⟩ := eq_of_append_first (by simpa using hrest) (by simpa using hrest') hreverse
  exact ⟨List.reverse_inj.1 hf, List.reverse_inj.1 hr⟩

end Cut

/-! ### Beginnings -/

/-- Neither text begins like the other. -/
def Apart (v w : String) : Prop := ¬ v.toList <+: w.toList ∧ ¬ w.toList <+: v.toList

namespace Apart

variable {v w : String}

lemma symm (h : Apart v w) : Apart w v := And.symm h

/-- Texts that are given by their characters are compared by them. -/
lemma of_chars {first second : List Char} (h : ¬ first <+: second ∧ ¬ second <+: first) :
    Apart (String.ofList first) (String.ofList second) := by
  rwa [Apart, String.toList_ofList, String.toList_ofList]

lemma append (h : Apart v w) (x : String) : Apart v (w ++ x) := by
  have hw : w.toList <+: (w ++ x).toList := by
    rw [String.toList_append]
    exact List.prefix_append _ _
  refine ⟨fun hv => ?_, fun hv => h.2 (hw.trans hv)⟩
  rcases List.prefix_or_prefix_of_prefix hv hw with hvw | hwv
  · exact h.1 hvw
  · exact h.2 hwv

lemma append_ne (h : Apart v w) (x y : String) : v ++ x ≠ w ++ y := by
  intro heq
  have hboth := (h.append y).symm.append x
  rw [heq] at hboth
  exact hboth.1 (List.prefix_refl _)

end Apart

/-! ### Numbers -/

/-- Numbers that are written the same are the same. -/
lemma toString_injective {m n : ℕ} (h : toString m = toString n) : m = n := by
  have hread := congrArg (fun digits => Nat.ofDigitChars 10 digits.toList 0) h
  simpa [Nat.toString_eq_ofList_toDigits] using hread

/-- A number is written in digits. -/
lemma isDigit_of_mem_toString {c : Char} {n : ℕ} (h : c ∈ (toString n).toList) : c.isDigit := by
  rw [Nat.toString_eq_ofList_toDigits, String.toList_ofList] at h
  exact Nat.isDigit_of_mem_toDigits (by decide) (Nat.le_refl 10) h

lemma space_not_mem_toString (n : ℕ) : ' ' ∉ (toString n).toList := fun h =>
  absurd (isDigit_of_mem_toString h) (by decide)

end RuleScript.Text
