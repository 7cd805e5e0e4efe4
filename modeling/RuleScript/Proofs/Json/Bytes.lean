import Mathlib.Tactic.Common
import RuleScript.Json.Quoted
import RuleScript.Json.Read

/-!
The bytes of a text and those of its quoted form.

* `bytesOf_append`, `bytesOf_ofList`: the bytes of a text are those of its characters, one after
  another, and `textOfBytes_bytesOf` reads the text back from them;
* `Escaped`: the forms that one character has between quotation marks, a short escape, a
  hexadecimal one or the character itself, and `escaped_escaped` says that there are no others;
* `bytesOf_quote`: a quoted text is these forms between two quotation marks.
-/

namespace RuleScript.Json

open String (utf8EncodeChar)

/-! ### The bytes of a text -/

@[simp] lemma bytesOf_append (a b : String) : bytesOf (a ++ b) = bytesOf a ++ bytesOf b := by
  simp [bytesOf]

/-- The bytes of a text are those of its characters. -/
lemma bytesOf_ofList (cs : List Char) :
    bytesOf (String.ofList cs) = cs.flatMap utf8EncodeChar := by
  simp [bytesOf, List.utf8Encode]

lemma bytesOf_eq_flatMap (s : String) : bytesOf s = s.toList.flatMap utf8EncodeChar := by
  rw [← bytesOf_ofList, String.ofList_toList]

lemma bytesOf_toString (c : Char) : bytesOf c.toString = utf8EncodeChar c := by
  rw [bytesOf_eq_flatMap]
  simp

lemma bytesOf_join (texts : List String) :
    bytesOf (String.join texts) = texts.flatMap bytesOf := by
  induction texts with
  | nil => rfl
  | cons x rest ih => simp [ih]

/-- A text is read back from its bytes. -/
lemma textOfBytes_bytesOf (s : String) : textOfBytes (bytesOf s) = .ok s := by
  have harray : (bytesOf s).toByteArray = s.toByteArray := by
    apply ByteArray.ext
    rw [List.data_toByteArray, bytesOf, Array.toArray_toList]
  have hdecode : String.fromUTF8? s.toByteArray = some s := by
    rw [String.fromUTF8?, dif_pos s.isValidUTF8]
    rfl
  rw [textOfBytes, harray, hdecode]

/-! ### The bytes of a character -/

/-- An ASCII character is a single byte. -/
lemma utf8EncodeChar_of_lt {c : Char} (h : c.toNat < 0x80) :
    utf8EncodeChar c = [UInt8.ofNat c.toNat] := by
  rw [utf8EncodeChar]
  exact if_pos (Nat.le_of_lt_succ h)

/-- Every byte of any other character is larger than those of ASCII. -/
lemma le_of_mem_utf8EncodeChar {c : Char} (h : 0x80 ≤ c.toNat) {b : UInt8}
    (hb : b ∈ utf8EncodeChar c) : 0x80 ≤ b := by
  have hbyte : ∀ n k : ℕ, 0x80 ≤ k → n + k < 256 → 0x80 ≤ UInt8.ofNat (n + k) := by
    intro n k hk hlt
    rw [UInt8.le_iff_toNat_le, UInt8.toNat_ofNat_of_lt' hlt]
    exact Nat.le_trans hk (Nat.le_add_left k n)
  have hgt : ¬ c.val.toNat ≤ 0x7f := Nat.not_le.mpr h
  rw [utf8EncodeChar, if_neg hgt] at hb
  split at hb
  · simp only [List.mem_cons, List.not_mem_nil, or_false] at hb
    rcases hb with rfl | rfl <;> exact hbyte _ _ (by omega) (by omega)
  · split at hb
    · simp only [List.mem_cons, List.not_mem_nil, or_false] at hb
      rcases hb with rfl | rfl | rfl <;> exact hbyte _ _ (by omega) (by omega)
    · simp only [List.mem_cons, List.not_mem_nil, or_false] at hb
      rcases hb with rfl | rfl | rfl | rfl <;> exact hbyte _ _ (by omega) (by omega)

/-- Such a byte is none of those that begin, end or escape anything. -/
lemma ne_of_large {b c : UInt8} (hb : 0x80 ≤ b) (hc : c < 0x80) : b ≠ c := by
  rintro rfl
  exact UInt8.not_lt.2 hb hc

/-- An ASCII byte is the whole of its character. -/
lemma eq_of_mem_utf8EncodeChar {c d : Char} (hd : d.toNat < 0x80)
    (h : UInt8.ofNat d.toNat ∈ utf8EncodeChar c) : c = d := by
  have hbyte : (UInt8.ofNat d.toNat).toNat = d.toNat :=
    UInt8.toNat_ofNat_of_lt' (Nat.lt_trans hd (by decide))
  by_cases hc : c.toNat < 0x80
  · rw [utf8EncodeChar_of_lt hc, List.mem_singleton] at h
    have hnat : (UInt8.ofNat c.toNat).toNat = c.toNat :=
      UInt8.toNat_ofNat_of_lt' (Nat.lt_trans hc (by decide))
    apply Char.toNat_inj.1
    rw [← hnat, ← h, hbyte]
  · have hlarge := le_of_mem_utf8EncodeChar (Nat.not_lt.1 hc) h
    rw [UInt8.le_iff_toNat_le, hbyte] at hlarge
    exact absurd hd (Nat.not_lt.2 hlarge)

/-! ### Characters between quotation marks -/

/-- The ways in which a character stands between quotation marks. -/
inductive Escaped (c : Char) : List UInt8 → Prop
  | short {letter b : UInt8} (letter_eq : shortEscape? letter = some b)
      (char_eq : utf8EncodeChar c = [b]) :
    Escaped c [Byte.backslash, letter]
  | unit {digits : List UInt8} (length_eq : digits.length = 4)
      (isHex : ∀ d ∈ digits, (hexDigit? d).isSome) (value_eq : hexValue? digits = some c.toNat)
      (lt : c.toNat < 0x20) :
    Escaped c (Byte.backslash :: Byte.lowerU :: digits)
  | plain (isPlain : ∀ b ∈ utf8EncodeChar c,
      Byte.space ≤ b ∧ b ≠ Byte.quotationMark ∧ b ≠ Byte.backslash) :
    Escaped c (utf8EncodeChar c)

/-- A hexadecimal digit is read back from its character. -/
lemma exists_hexDigit? {n : ℕ} (h : n < 16) :
    ∃ d, utf8EncodeChar (Text.hexDigit n) = [d] ∧ hexDigit? d = some n := by
  have hall : ∀ n < 16, utf8EncodeChar (Text.hexDigit n) =
      [UInt8.ofNat (Text.hexDigit n).toNat] ∧
        hexDigit? (UInt8.ofNat (Text.hexDigit n).toNat) = some n := by
    decide
  exact ⟨_, hall n h⟩

/-- A control character without a letter of its own is read back from its four digits. -/
lemma escaped_controlEscape {c : Char} (h : c.toNat < 0x20) :
    Escaped c (bytesOf (controlEscape c.toNat)) := by
  obtain ⟨high, hhigh, hhighValue⟩ := exists_hexDigit? (n := c.toNat / 16) (by omega)
  obtain ⟨low, hlow, hlowValue⟩ := exists_hexDigit? (n := c.toNat % 16) (by omega)
  have hbytes : bytesOf (controlEscape c.toNat) =
      Byte.backslash :: Byte.lowerU :: [Byte.zero, Byte.zero, high, low] := by
    rw [controlEscape, bytesOf_append, bytesOf_append, bytesOf_toString, bytesOf_toString, hhigh,
      hlow]
    rfl
  have hzero : hexDigit? Byte.zero = some 0 := by decide
  rw [hbytes]
  refine .unit rfl ?_ ?_ h
  · simp [hzero, hhighValue, hlowValue]
  · simp [hexValue?, hzero, hhighValue, hlowValue]
    omega

/-- Every other character that is not escaped stands for itself. -/
lemma isPlain_utf8EncodeChar {c : Char} (hquote : c ≠ '"') (hbackslash : c ≠ '\\')
    (hle : 0x20 ≤ c.toNat) {b : UInt8} (hb : b ∈ utf8EncodeChar c) :
    Byte.space ≤ b ∧ b ≠ Byte.quotationMark ∧ b ≠ Byte.backslash := by
  by_cases hlt : c.toNat < 0x80
  · rw [utf8EncodeChar_of_lt hlt, List.mem_singleton] at hb
    have hnat : b.toNat = c.toNat := by
      rw [hb, UInt8.toNat_ofNat_of_lt' (Nat.lt_trans hlt (by decide))]
    refine ⟨?_, ?_, ?_⟩
    · rw [UInt8.le_iff_toNat_le, hnat]
      exact hle
    · rintro rfl
      exact hquote (Char.toNat_inj.1 hnat.symm)
    · rintro rfl
      exact hbackslash (Char.toNat_inj.1 hnat.symm)
  · have hlarge := le_of_mem_utf8EncodeChar (Nat.not_lt.mp hlt) hb
    refine ⟨UInt8.le_trans (by decide) hlarge, ?_, ?_⟩
    · rintro rfl
      exact absurd hlarge (by decide)
    · rintro rfl
      exact absurd hlarge (by decide)

/-- A character stands between quotation marks in one of the ways listed. -/
lemma escaped_escaped (c : Char) : Escaped c (bytesOf (escaped c)) := by
  unfold escaped
  split
  · exact @Escaped.short _ Byte.quotationMark _ rfl rfl
  · exact @Escaped.short _ Byte.backslash _ rfl rfl
  · exact @Escaped.short _ Byte.lowerB _ rfl rfl
  · exact @Escaped.short _ Byte.lowerF _ rfl rfl
  · exact @Escaped.short _ Byte.lowerN _ rfl rfl
  · exact @Escaped.short _ Byte.lowerR _ rfl rfl
  · exact @Escaped.short _ Byte.lowerT _ rfl rfl
  · next hquote hbackslash _ _ _ _ _ =>
    split
    · next hlt => exact escaped_controlEscape hlt
    · next hge =>
      rw [bytesOf_toString]
      exact .plain fun b hb => isPlain_utf8EncodeChar hquote hbackslash (Nat.not_lt.mp hge) hb

/-- A quoted text is its characters, each in one of these ways, between two quotation marks. -/
lemma bytesOf_quote (s : String) : bytesOf (quote s) =
    Byte.quotationMark ::
      (s.toList.flatMap (fun c => bytesOf (escaped c)) ++ [Byte.quotationMark]) := by
  have hmark : bytesOf "\"" = [Byte.quotationMark] := rfl
  rw [quote, bytesOf_append, bytesOf_append, bytesOf_join, List.flatMap_map, hmark]
  rfl

end RuleScript.Json
