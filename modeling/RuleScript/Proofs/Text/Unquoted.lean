import Mathlib.Tactic.Common
import RuleScript.Text.Quoted

/-!
Reading a text that is shown between quotation marks.

* `unquoted?`: the reader, which takes one character after another;
* `contents?_shown`: a character is read from the way in which it is shown, whatever stands behind it;
* `unquoted?_quoted`: a text is read from the way in which it is shown.
-/

namespace RuleScript.Text

/-! ### The reader -/

/-- Where a reader of a shown text stands. -/
inductive Within where
  | plain
  /-- Behind a backslash. -/
  | escape
  /-- Behind the letter that a number in braces follows. -/
  | opening
  /-- In the braces, with the number that has been read so far. -/
  | braces (code : ℕ)

/-- The character that one character behind a backslash stands for. -/
def escaped? : Char → Option Char
  | '0' => some '\x00'
  | 't' => some '\t'
  | 'n' => some '\n'
  | 'r' => some '\r'
  | '"' => some '"'
  | '\\' => some '\\'
  | _ => none

/-- The value of a hexadecimal digit. -/
def hexValue (c : Char) : ℕ :=
  if c.isDigit then c.toNat - '0'.toNat else 10 + c.toNat - 'a'.toNat

/-- Reads the characters of a text up to the quotation mark that ends it. -/
def contents? : Within → List Char → Option (List Char)
  | _, [] => none
  | .plain, c :: rest =>
    if c = '"' then if rest.isEmpty then some [] else none
    else if c = '\\' then contents? .escape rest
    else (contents? .plain rest).map (c :: ·)
  | .escape, c :: rest =>
    if c = 'u' then contents? .opening rest
    else (escaped? c).bind fun d => (contents? .plain rest).map (d :: ·)
  | .opening, c :: rest => if c = '\x7b' then contents? (.braces 0) rest else none
  | .braces code, c :: rest =>
    if c = '\x7d' then (contents? .plain rest).map (Char.ofNat code :: ·)
    else contents? (.braces (16 * code + hexValue c)) rest

/-- Reads a text between quotation marks. -/
def unquoted? : List Char → Option String
  | '"' :: rest => (contents? .plain rest).map String.ofList
  | _ => none

/-! ### What it reads -/

lemma hexValue_digitChar : ∀ d < 16, Nat.digitChar d ≠ '\x7d' ∧ hexValue (Nat.digitChar d) = d := by
  decide

/-- The digits of a number are read. -/
lemma contents?_toDigits (n : ℕ) (rest : List Char) :
    contents? (.braces 0) (Nat.toDigits 16 n ++ rest) = contents? (.braces n) rest := by
  have hdigit : ∀ code d, d < 16 → ∀ rest, contents? (.braces code) (Nat.digitChar d :: rest) =
      contents? (.braces (16 * code + d)) rest := by
    intro code d hd rest
    obtain ⟨hne, hvalue⟩ := hexValue_digitChar d hd
    rw [contents?, if_neg hne, hvalue]
  induction n using Nat.strongRecOn generalizing rest with
  | ind n ih =>
      by_cases hn : n < 16
      · rw [Nat.toDigits_of_lt_base hn, List.singleton_append, hdigit 0 n hn, Nat.mul_zero,
          Nat.zero_add]
      · -- the last digit is read behind those of the number without it
        have hdiv : 0 < n / 16 := by omega
        have hmod : n % 16 < 16 := Nat.mod_lt n (by decide)
        have hsplit := Nat.toDigits_append_toDigits (by decide) hdiv hmod
        rw [Nat.div_add_mod, Nat.toDigits_of_lt_base hmod] at hsplit
        rw [← hsplit, List.append_assoc, ih (n / 16) (by omega), List.singleton_append,
          hdigit _ _ hmod, Nat.div_add_mod]

/-- A character is read from the way in which it is shown. -/
lemma contents?_shown (c : Char) (rest : List Char) :
    contents? .plain ((shown c).toList ++ rest) = (contents? .plain rest).map (c :: ·) := by
  unfold shown
  split
  · rfl
  · rfl
  · rfl
  · rfl
  · rfl
  · rfl
  · next _ _ _ _ hquote hbackslash =>
    split
    · have hshown : c.toString.toList = [c] := by simp
      rw [hshown, List.singleton_append, contents?, if_neg hquote, if_neg hbackslash]
    · simp [contents?, hex, contents?_toDigits, Char.ofNat_toNat]

lemma contents?_join (cs : List Char) :
    contents? .plain ((String.join (cs.map shown)).toList ++ ['"']) = some cs := by
  induction cs with
  | nil => rfl
  | cons c cs ih =>
      rw [List.map_cons, String.join_cons, String.toList_append, List.append_assoc, contents?_shown,
        ih, Option.map_some]

/-- A text is read from the way in which it is shown. -/
theorem unquoted?_quoted (x : String) : unquoted? (quoted x).toList = some x := by
  have hquoted : (quoted x).toList =
      '"' :: ((String.join (x.toList.map shown)).toList ++ ['"']) := by
    rw [quoted, String.toList_append, String.toList_append]
    rfl
  rw [hquoted, unquoted?, contents?_join, Option.map_some, String.ofList_toList]

end RuleScript.Text
