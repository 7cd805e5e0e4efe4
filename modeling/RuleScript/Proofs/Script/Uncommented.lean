import RuleScript.Proofs.Json.Run
import RuleScript.Proofs.Script.Exact
import RuleScript.Proofs.Script.Pieces

/-!
Reading a script while its comments are taken out is the same as taking them out first.

* `exists_text_of_uncommented`: what is left of a text without its comments is a text again, however
  the characters inside the comments are encoded;
* `ofBytes_eq_ok_iff`: which bytes are accepted, and as which script;
* `parseInMemory_uncommented`: the text without its comments is read as the text itself is, errors
  and their places included, and a text whose comments cannot be taken out is never accepted.
-/

namespace RuleScript.Script

open RuleScript.Json
open String (utf8EncodeChar)

variable {bytes left : List UInt8}

/-! ### What is left is a text -/

/-- A byte is handed on as itself or as a space, or not at all. -/
lemma CommentState.eq_of_shown {s : CommentState} {b c : UInt8} (h : s.shown b = .byte c) :
    c = b ∨ c = Byte.space := by
  cases s with
  | code =>
      obtain rfl := Feed.Item.byte.inj h
      split
      · exact .inr rfl
      · exact .inl rfl
  | string => exact .inl (Feed.Item.byte.inj h).symm
  | escape => exact .inl (Feed.Item.byte.inj h).symm
  | slash =>
      rw [shown] at h
      split at h
      · exact .inr (Feed.Item.byte.inj h).symm
      · cases h
  | block => exact .inr (Feed.Item.byte.inj h).symm
  | blockAsterisk => exact .inr (Feed.Item.byte.inj h).symm
  | line =>
      obtain rfl := Feed.Item.byte.inj h
      split
      · exact .inl rfl
      · exact .inr rfl

/-- Outside comments, the bytes of characters outside ASCII are handed on as they are. -/
lemma CommentState.leaves_large {s : CommentState} (hs : s = .code ∨ s = .string ∨ s = .escape)
    (hlarge : ∀ b ∈ bytes, 0x80 ≤ b) : ∃ t, Leaves s bytes bytes t := by
  induction bytes generalizing s with
  | nil => exact ⟨s, .nil s⟩
  | cons b bytes ih =>
      have hb : 0x80 ≤ b := hlarge b (by simp)
      have hquote : b ≠ Byte.quotationMark := ne_of_large hb (by decide)
      have hslash : b ≠ Byte.slash := ne_of_large hb (by decide)
      have hbackslash : b ≠ Byte.backslash := ne_of_large hb (by decide)
      have hshown : s.shown b = .byte b := by
        rcases hs with rfl | rfl | rfl <;> simp [shown, hslash]
      have hnext : s.next b = .code ∨ s.next b = .string ∨ s.next b = .escape := by
        rcases hs with rfl | rfl | rfl <;> simp [next, hquote, hslash, hbackslash]
      obtain ⟨t, ht⟩ := ih hnext fun c hc => hlarge c (by simp [hc])
      exact ⟨t, .cons hshown rfl ht⟩

/-- Inside comments, the bytes of characters outside ASCII become spaces. -/
lemma CommentState.leaves_large_comment {s : CommentState}
    (hs : s = .block ∨ s = .blockAsterisk ∨ s = .line) (hlarge : ∀ b ∈ bytes, 0x80 ≤ b) :
    ∃ t, Leaves s bytes (spaces bytes.length) t := by
  induction bytes generalizing s with
  | nil => exact ⟨s, .nil s⟩
  | cons b bytes ih =>
      have hb : 0x80 ≤ b := hlarge b (by simp)
      have hasterisk : b ≠ Byte.asterisk := ne_of_large hb (by decide)
      have hslash : b ≠ Byte.slash := ne_of_large hb (by decide)
      have hlineFeed : b ≠ Byte.lineFeed := ne_of_large hb (by decide)
      have hshown : s.shown b = .byte Byte.space := by
        rcases hs with rfl | rfl | rfl <;> simp [shown, hlineFeed]
      have hnext : s.next b = .block ∨ s.next b = .blockAsterisk ∨ s.next b = .line := by
        rcases hs with rfl | rfl | rfl <;> simp [next, hasterisk, hslash, hlineFeed]
      obtain ⟨t, ht⟩ := ih hnext fun c hc => hlarge c (by simp [hc])
      exact ⟨t, .cons hshown rfl ht⟩

lemma spaces_eq_flatMap (n : ℕ) : spaces n = (List.replicate n ' ').flatMap utf8EncodeChar := by
  induction n with
  | zero => rfl
  | succ n ih =>
      rw [List.replicate_succ, List.flatMap_cons, ← ih]
      rfl

/-- What is left of a character is that character, or as many spaces as it has bytes. -/
lemma exists_chars_of_char (s : CommentState) (c : Char)
    (h : (withoutCommentsFrom s (utf8EncodeChar c)).items = left.map .byte) :
    ∃ ds : List Char, left = ds.flatMap utf8EncodeChar := by
  have hself : utf8EncodeChar c = [c].flatMap utf8EncodeChar := by simp
  by_cases hascii : c.toNat < 0x80
  · rw [utf8EncodeChar_of_lt hascii, withoutCommentsFrom, withoutCommentsFrom] at h
    obtain ⟨b, rfl, hb⟩ := List.map_eq_singleton_iff.1 h.symm
    rcases CommentState.eq_of_shown hb.symm with rfl | rfl
    · exact ⟨[c], by rw [← hself, utf8EncodeChar_of_lt hascii]⟩
    · exact ⟨[' '], rfl⟩
  · have hlarge : ∀ b ∈ utf8EncodeChar c, 0x80 ≤ b := fun b hb =>
      le_of_mem_utf8EncodeChar (Nat.not_lt.1 hascii) hb
    have hcode : (s = .code ∨ s = .string ∨ s = .escape) →
        ∃ ds : List Char, left = ds.flatMap utf8EncodeChar := by
      intro hs
      obtain ⟨t, ht⟩ := CommentState.leaves_large hs hlarge
      exact ⟨[c], by rw [← hself, ← eq_of_map_byte (ht.items_eq.symm.trans h)]⟩
    have hcomment : (s = .block ∨ s = .blockAsterisk ∨ s = .line) →
        ∃ ds : List Char, left = ds.flatMap utf8EncodeChar := by
      intro hs
      obtain ⟨t, ht⟩ := CommentState.leaves_large_comment hs hlarge
      exact ⟨_, by rw [← spaces_eq_flatMap, ← eq_of_map_byte (ht.items_eq.symm.trans h)]⟩
    cases s with
    | code => exact hcode (.inl rfl)
    | string => exact hcode (.inr (.inl rfl))
    | escape => exact hcode (.inr (.inr rfl))
    | block => exact hcomment (.inl rfl)
    | blockAsterisk => exact hcomment (.inr (.inl rfl))
    | line => exact hcomment (.inr (.inr rfl))
    | slash =>
        -- behind a slash no such byte is handed on
        cases hbytes : utf8EncodeChar c with
        | nil => exact absurd hbytes String.utf8EncodeChar_ne_nil
        | cons b rest =>
            have hb : 0x80 ≤ b := hlarge b (by simp [hbytes])
            have hfault : CommentState.shown .slash b = .fault .invalidData := by
              simp [CommentState.shown, ne_of_large hb (c := Byte.asterisk) (by decide),
                ne_of_large hb (c := Byte.slash) (by decide)]
            rw [hbytes, withoutCommentsFrom, hfault] at h
            obtain ⟨_, _, -, hb', -⟩ := List.map_eq_cons_iff.1 h.symm
            cases hb'

/-- What is left of characters is characters. -/
lemma exists_chars (s : CommentState) (cs : List Char)
    (h : (withoutCommentsFrom s (cs.flatMap utf8EncodeChar)).items = left.map .byte) :
    ∃ ds : List Char, left = ds.flatMap utf8EncodeChar := by
  induction cs generalizing s left with
  | nil =>
      obtain rfl := List.map_eq_nil_iff.1 h.symm
      exact ⟨[], rfl⟩
  | cons c cs ih =>
      rw [List.flatMap_cons, items_append] at h
      obtain ⟨first, later, rfl, hfirst, hlater⟩ := List.map_eq_append_iff.1 h.symm
      obtain ⟨ds, rfl⟩ := exists_chars_of_char s c hfirst.symm
      obtain ⟨es, rfl⟩ := ih _ hlater.symm
      exact ⟨ds ++ es, by rw [List.flatMap_append]⟩

/-- What is left of a text without its comments is a text. -/
theorem exists_text_of_uncommented {source : String} (h : Uncommented (bytesOf source) left) :
    ∃ text, bytesOf text = left := by
  have hitems : (withoutComments (bytesOf source)).items = left.map .byte := by
    rw [(withoutComments_eq_ofBytes_iff _ _).2 h]
    rfl
  rw [withoutComments, bytesOf_eq_flatMap] at hitems
  obtain ⟨ds, rfl⟩ := exists_chars .code _ hitems
  exact ⟨String.ofList ds, bytesOf_ofList ds⟩

/-! ### What is accepted -/

/-- A value stands for a script exactly if the script is written as it. -/
lemma ofValue_eq_ok_iff {v : Value} {script : Script} :
    ofValue v = .ok script ↔ v = script.toValue := by
  constructor
  · intro h
    cases v with
    | array items => rw [toValue, ← eq_toValues_of_ofValues h]
    | _ => cases h
  · rintro rfl
    exact ofValue_toValue script

/-- Bytes are accepted exactly if their comments can be taken out and the reader runs over all that
is left, to the end of a value that is that of the script when repeated keys are merged. -/
theorem ofBytes_eq_ok_iff {script : Script} :
    ofBytes bytes = .ok script ↔
      ∃ left r v, Uncommented bytes left ∧ Reader.start.run left = .ok r ∧ r.finish = .ok v ∧
        v.merged = script.toValue := by
  constructor
  · intro h
    rw [ofBytes, ofFeed] at h
    cases hread : Json.read (withoutComments bytes) with
    | error e =>
        rw [hread] at h
        cases h
    | ok w =>
        rw [hread] at h
        have hscript := ofValue_eq_ok_iff.1 (mapError_eq_ok_iff.1 h)
        obtain ⟨left, r, v, hfeed, hrun, hfinish, hmerged⟩ := read_eq_ok_iff.1 hread
        exact ⟨left, r, v, (withoutComments_eq_ofBytes_iff _ _).1 hfeed, hrun, hfinish,
          hmerged.trans hscript⟩
  · rintro ⟨left, r, v, huncommented, hrun, hfinish, hmerged⟩
    have hfeed := (withoutComments_eq_ofBytes_iff _ _).2 huncommented
    have hread := read_eq_ok_iff.2 ⟨left, r, v, hfeed, hrun, hfinish, hmerged⟩
    simp only [ofBytes, ofFeed, hread, ofValue_toValue]
    rfl

lemma parseInMemory_eq_ok_iff {source : String} {script : Script} :
    parseInMemory source = .ok script ↔ ofBytes (bytesOf source) = .ok script :=
  mapError_eq_ok_iff

/-! ### The comments taken out first -/

/-- **Comments can as well be taken out first.** Where they can be taken out, the text that is left
is read as the text itself is, with the same script or the same error at the same place. A text
whose comments cannot be taken out is never accepted, however early its value ends. Every text is of
exactly one of these two kinds, and what is left is what the automaton of the comments hands on. -/
theorem parseInMemory_uncommented (source : String) :
    (∀ text : String, Uncommented (bytesOf source) (bytesOf text) →
      parseInMemory source = parseInMemory text) ∧
    (Broken (bytesOf source) → ∃ e, parseInMemory source = .error e) ∧
    ((∃ text : String, Uncommented (bytesOf source) (bytesOf text)) ↔
      ¬ Broken (bytesOf source)) ∧
    (∀ left, withoutComments (bytesOf source) = .ofBytes left ↔
      Uncommented (bytesOf source) left) := by
  refine ⟨?_, ?_, ?_, withoutComments_eq_ofBytes_iff (bytesOf source)⟩
  · intro text h
    have hsource := (withoutComments_eq_ofBytes_iff _ _).2 h
    have htext := (withoutComments_eq_ofBytes_iff _ _).2 h.again
    rw [parseInMemory, parseInMemory, parse, parse, ofBytes, ofBytes, hsource, htext]
  · intro hbroken
    cases h : parseInMemory source with
    | error e => exact ⟨e, rfl⟩
    | ok script =>
        obtain ⟨left, r, v, huncommented, -⟩ :=
          ofBytes_eq_ok_iff.1 (parseInMemory_eq_ok_iff.1 h)
        exact absurd ((withoutComments_eq_ofBytes_iff _ _).2 huncommented)
          (hbroken.withoutComments_ne left)
  · constructor
    · rintro ⟨text, huncommented⟩ hbroken
      exact hbroken.withoutComments_ne _ ((withoutComments_eq_ofBytes_iff _ _).2 huncommented)
    · intro hsound
      obtain ⟨left, huncommented⟩ := (uncommented_or_broken _).resolve_right hsound
      obtain ⟨text, rfl⟩ := exists_text_of_uncommented huncommented
      exact ⟨text, huncommented⟩

-- the comment that is not closed is met behind the end of the script
example : (parseInMemory "[\"a\"] /*").isOk = false := by rfl

end RuleScript.Script
