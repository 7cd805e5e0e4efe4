import RuleScript.Proofs.Json.ReadBack
import RuleScript.Proofs.Script.Pieces

/-!
Bytes in which no comment is found.

* `CommentState.Passes`: bytes that are handed on as they are, from one state to another;
* `passes_quote`: a quoted text is such, whatever stands between its quotation marks, and the byte
  behind it stands outside strings again;
* `Intact`: values whose compact text is left as it is; strings, arrays of intact values
  (`intact_array`) and objects with one intact member (`intact_object`) are intact;
* `withoutComments_compact`: their compact text is read as it stands.
-/

namespace RuleScript.Script

open RuleScript.Json

namespace CommentState

variable {s t u : CommentState} {first second bytes : List UInt8} {b : UInt8} {c : Char}

/-- The bytes are handed on as they are, from one state to the other. -/
structure Passes (s : CommentState) (bytes : List UInt8) (t : CommentState) : Prop where
  items_eq : (withoutCommentsFrom s bytes).items = bytes.map .byte
  behind_eq : s.behind bytes = t

/-- Bytes pass where all of them are what is handed on of them. -/
lemma passes_iff_leaves : Passes s bytes t ↔ Leaves s bytes bytes t :=
  ⟨fun h => ⟨h.items_eq, h.behind_eq⟩, fun h => ⟨h.items_eq, h.behind_eq⟩⟩

lemma Passes.nil (s : CommentState) : Passes s [] s := ⟨rfl, rfl⟩

/-- Bytes pass one after another. -/
lemma Passes.append (h₁ : Passes s first t) (h₂ : Passes t second u) :
    Passes s (first ++ second) u :=
  passes_iff_leaves.2 ((passes_iff_leaves.1 h₁).append (passes_iff_leaves.1 h₂))

lemma Passes.cons (hshown : s.shown b = .byte b) (hnext : s.next b = t)
    (h : Passes t bytes u) : Passes s (b :: bytes) u :=
  passes_iff_leaves.2 ((passes_iff_leaves.1 h).cons hshown hnext)

/-- Bytes that stay in a state and are handed on there pass together. -/
lemma passes_of_forall (h : ∀ b ∈ bytes, s.shown b = .byte b ∧ s.next b = s) :
    Passes s bytes s := by
  induction bytes with
  | nil => exact Passes.nil s
  | cons b bytes ih =>
      obtain ⟨hshown, hnext⟩ := h b (by simp)
      exact Passes.cons hshown hnext (ih fun b hb => h b (by simp [hb]))

/-- A byte outside strings that begins neither a string nor a comment passes. -/
lemma Passes.code_cons (hquote : b ≠ Byte.quotationMark) (hslash : b ≠ Byte.slash)
    (h : Passes .code bytes u) : Passes .code (b :: bytes) u :=
  h.cons (by simp [shown, hslash]) (by simp [next, hquote, hslash])

/-! ### Strings -/

/-- Bytes that mean nothing in a string pass inside it, slashes and asterisks included. -/
lemma passes_plain (h : ∀ b ∈ bytes, b ≠ Byte.quotationMark ∧ b ≠ Byte.backslash) :
    Passes .string bytes .string := by
  refine passes_of_forall fun b hb => ?_
  obtain ⟨hquote, hbackslash⟩ := h b hb
  exact ⟨rfl, by simp [next, hquote, hbackslash]⟩

/-- A hexadecimal digit ends no string and escapes nothing. -/
lemma ne_of_hexDigit? (h : (hexDigit? b).isSome) :
    b ≠ Byte.quotationMark ∧ b ≠ Byte.backslash := by
  refine ⟨?_, ?_⟩
  · rintro rfl
    exact absurd h (by decide)
  · rintro rfl
    exact absurd h (by decide)

/-- A character passes inside a string in each of its forms. -/
lemma passes_escaped (h : Escaped c bytes) : Passes .string bytes .string := by
  have hopen : ∀ {letter : UInt8} {rest : List UInt8}, Passes .string rest .string →
      Passes .string (Byte.backslash :: letter :: rest) .string := by
    intro letter rest hrest
    exact Passes.cons (t := .escape) rfl rfl (hrest.cons rfl rfl)
  cases h with
  | short letter_eq char_eq => exact hopen (Passes.nil _)
  | unit length_eq isHex value_eq lt =>
      exact hopen (passes_plain fun d hd => ne_of_hexDigit? (isHex d hd))
  | plain isPlain => exact passes_plain fun b hb => (isPlain b hb).2

/-- The characters of a text pass between quotation marks. -/
lemma passes_text (cs : List Char) :
    Passes .string (cs.flatMap fun c => bytesOf (escaped c)) .string := by
  induction cs with
  | nil => exact Passes.nil _
  | cons c cs ih =>
      rw [List.flatMap_cons]
      exact (passes_escaped (escaped_escaped c)).append ih

/-- A text passes behind its opening quotation mark and is closed. -/
lemma passes_unquoted (s : String) : Passes .string (Reader.unquoted s) .code :=
  (passes_text s.toList).append (Passes.cons rfl rfl (Passes.nil _))

/-- A quoted text passes, and what follows it stands outside strings. -/
lemma passes_quote (s : String) : Passes .code (bytesOf (quote s)) .code := by
  rw [bytesOf_quote]
  exact Passes.cons (t := .string) rfl rfl (passes_unquoted s)

end CommentState

open CommentState

/-! ### Values -/

/-- The compact text of the value passes. -/
def Intact (v : Value) : Prop := Passes .code (bytesOf v.compact) .code

lemma intact_string (s : String) : Intact (.string s) := by
  rw [Intact, Value.compact]
  exact passes_quote s

/-- The items behind the first one of an array pass. -/
lemma passes_laterItems {rest : List Value} (hrest : ∀ v ∈ rest, Intact v) :
    Passes .code (laterItems rest) .code := by
  induction rest with
  | nil => exact .nil _
  | cons v rest ih =>
      have hv : Passes .code (bytesOf v.compact) .code := hrest v (by simp)
      have hlater := ih fun w hw => hrest w (by simp [hw])
      exact .code_cons (by decide) (by decide) (hv.append hlater)

lemma intact_array {items : List Value} (hitems : ∀ v ∈ items, Intact v) :
    Intact (.array items) := by
  have hclose : Passes .code [Byte.closeBracket] .code :=
    .code_cons (by decide) (by decide) (.nil _)
  rw [Intact, bytesOf_compact_array]
  refine .code_cons (by decide) (by decide) ?_
  cases items with
  | nil => exact hclose
  | cons v rest =>
      have hv : Passes .code (bytesOf v.compact) .code := hitems v (by simp)
      have hlater := passes_laterItems fun w hw => hitems w (List.mem_cons_of_mem v hw)
      rw [bytesOf_compactItems]
      exact (hv.append hlater).append hclose

lemma intact_object (key : String) {v : Value} (hv : Intact v) : Intact (.object [(key, v)]) := by
  have hclose : Passes .code [Byte.closeBrace] .code :=
    .code_cons (by decide) (by decide) (.nil _)
  rw [Intact, bytesOf_compact_member]
  refine .code_cons (by decide) (by decide) (.cons (t := .string) rfl rfl ?_)
  exact (passes_unquoted key).append (.code_cons (by decide) (by decide) (hv.append hclose))

/-- The compact text of an intact value is read as it stands. -/
theorem withoutComments_compact {v : Value} (h : Intact v) :
    withoutComments (bytesOf v.compact) = .ofBytes (bytesOf v.compact) :=
  (passes_iff_leaves.1 h).withoutComments_eq rfl

end RuleScript.Script
