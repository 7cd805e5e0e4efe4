import RuleScript.Proofs.Script.Alignment
import RuleScript.Proofs.Script.Uncommented

/-!
Blanks and comments between the tokens of a script mean nothing.

* `Gap`: blanks, a block comment or a line comment; `Gap.pieces` says that blanks are left of it;
* `BetweenTokens`: the places outside strings and comments, and not inside a number or a word;
* `parseInMemory_gap`: a gap may be put there, and the same script is read.
-/

namespace RuleScript.Script

open RuleScript.Json
open String (utf8EncodeChar)

/-! ### Characters and their bytes -/

section Characters

variable {c d : Char} {cs : List Char} {text body : String}

lemma mem_of_mem_bytesOf (hc : c.toNat < 0x80) (h : UInt8.ofNat c.toNat ∈ bytesOf text) :
    c ∈ text.toList := by
  rw [bytesOf_eq_flatMap, List.mem_flatMap] at h
  obtain ⟨e, he, hmem⟩ := h
  exact eq_of_mem_utf8EncodeChar hc hmem ▸ he

/-- Two bytes stand side by side behind others, none of which is the first of them. -/
lemma pair_infix_of_append {x y : UInt8} {first rest : List UInt8} (hx : x ∉ first)
    (h : [x, y] <:+: first ++ rest) : [x, y] <:+: rest := by
  induction first with
  | nil => exact h
  | cons b first ih =>
      rw [List.mem_cons, not_or] at hx
      obtain ⟨hne, hfirst⟩ := hx
      rcases (pair_infix_cons_iff x y b (first ++ rest)).1 h with ⟨rfl, -⟩ | hlater
      · exact absurd rfl hne
      · exact ih hfirst hlater

lemma head?_of_flatMap (hd : d.toNat < 0x80)
    (h : (cs.flatMap utf8EncodeChar).head? = some (UInt8.ofNat d.toNat)) : cs.head? = some d := by
  cases cs with
  | nil => cases h
  | cons e cs =>
      cases hbytes : utf8EncodeChar e with
      | nil => exact absurd hbytes String.utf8EncodeChar_ne_nil
      | cons b bytes =>
          rw [List.flatMap_cons, hbytes] at h
          obtain rfl := Option.some.inj h
          rw [eq_of_mem_utf8EncodeChar (c := e) hd (by simp [hbytes])]
          rfl

/-- Two ASCII characters stand side by side where their bytes do. -/
lemma pair_infix_of_flatMap (hc : c.toNat < 0x80) (hd : d.toNat < 0x80)
    (h : [UInt8.ofNat c.toNat, UInt8.ofNat d.toNat] <:+: cs.flatMap utf8EncodeChar) :
    [c, d] <:+: cs := by
  induction cs with
  | nil => simp at h
  | cons e cs ih =>
      rw [List.flatMap_cons] at h
      rw [pair_infix_cons_iff]
      by_cases he : e = c
      · subst he
        rw [utf8EncodeChar_of_lt hc, List.singleton_append, pair_infix_cons_iff] at h
        rcases h with ⟨-, hsecond⟩ | hlater
        · exact .inl ⟨rfl, head?_of_flatMap hd hsecond⟩
        · exact .inr (ih hlater)
      · have hnot : UInt8.ofNat c.toNat ∉ utf8EncodeChar e := fun hmem =>
          he (eq_of_mem_utf8EncodeChar hc hmem)
        exact .inr (ih (pair_infix_of_append hnot h))

end Characters

/-! ### Gaps -/

/-- What may stand between two tokens: blanks, a block comment, or a line comment with its end of
line. -/
inductive Gap : String → Prop
  | blanks {text : String} (blank : ∀ c ∈ text.toList, c ∈ [' ', '\t', '\r', '\n']) : Gap text
  | block {body : String} (notClosed : ¬ ['*', '/'] <:+: body.toList) :
    Gap ("/*" ++ body ++ "*/")
  | line {body : String} (notClosed : '\n' ∉ body.toList) : Gap ("//" ++ body ++ "\n")

lemma isBlank_of_mem_spaces {n : ℕ} {b : UInt8} (hb : b ∈ spaces n) : isBlank b := by
  rw [List.eq_of_mem_replicate hb]
  decide

/-- Of a gap only blanks are left. -/
lemma Gap.pieces {gap : String} (h : Gap gap) :
    ∃ left, Pieces (bytesOf gap) left ∧ ∀ b ∈ left, isBlank b := by
  cases h with
  | @blanks text blank =>
      have hblank : ∀ b ∈ bytesOf gap, isBlank b := by
        intro b hb
        rw [bytesOf_eq_flatMap, List.mem_flatMap] at hb
        obtain ⟨c, hc, hb⟩ := hb
        have hc' := blank c hc
        simp only [List.mem_cons, List.not_mem_nil, or_false] at hc'
        rcases hc' with rfl | rfl | rfl | rfl <;>
        · obtain rfl := List.mem_singleton.1 hb
          decide
      refine ⟨bytesOf gap, pieces_of_forall fun b hb => ⟨?_, ?_⟩, hblank⟩
      · rintro rfl
        exact absurd (hblank _ hb) (by decide)
      · rintro rfl
        exact absurd (hblank _ hb) (by decide)
  | @block body notClosed =>
      have hbody : ¬ [Byte.asterisk, Byte.slash] <:+: bytesOf body := by
        rw [bytesOf_eq_flatMap]
        exact fun h => notClosed (pair_infix_of_flatMap (c := '*') (d := '/') (by decide) (by decide) h)
      have hbytes : bytesOf ("/*" ++ body ++ "*/") =
          Byte.slash :: Byte.asterisk :: (bytesOf body ++ [Byte.asterisk, Byte.slash]) := by
        rw [bytesOf_append, bytesOf_append]
        rfl
      have hpieces := Pieces.cons (.comment (.block hbody)) .nil
      rw [List.append_nil, List.append_nil, ← hbytes] at hpieces
      exact ⟨_, hpieces, fun b hb => isBlank_of_mem_spaces hb⟩
  | @line body notClosed =>
      have hbody : Byte.lineFeed ∉ bytesOf body := fun h =>
        notClosed (mem_of_mem_bytesOf (c := '\n') (by decide) h)
      have hbytes : bytesOf ("//" ++ body ++ "\n") =
          Byte.slash :: Byte.slash :: (bytesOf body ++ [Byte.lineFeed]) := by
        rw [bytesOf_append, bytesOf_append]
        rfl
      have hpieces := Pieces.cons (.comment (.line hbody)) .nil
      rw [List.append_nil, List.append_nil, ← hbytes] at hpieces
      refine ⟨_, hpieces, fun b hb => ?_⟩
      rcases List.mem_append.1 hb with hb | hb
      · exact isBlank_of_mem_spaces hb
      · rw [List.mem_singleton.1 hb]
        decide

/-! ### Places between tokens -/

/-- A text cut in two outside strings and comments, and not inside a number or a word. A line comment
lasts to the end of its line. -/
def BetweenTokens (before after : String) : Prop :=
  ∃ left, Pieces (bytesOf before) left ∧
    ∀ l, Lexer.between.behind? left = some l → ¬ l.Continues (bytesOf after)

/-- What goes on with a number or a word when the comments are taken out does so before. -/
lemma continues_of_uncommented {l : Lexer} {bytes left : List UInt8}
    (huncommented : Uncommented bytes left) (h : l.Continues left) : l.Continues bytes := by
  cases h with
  | literal => exact .literal
  | @number token longer b rest step_eq =>
      have hitems : (withoutComments bytes).items = (b :: rest).map .byte := by
        rw [(withoutComments_eq_ofBytes_iff _ _).2 huncommented]
        rfl
      cases bytes with
      | nil => cases hitems
      | cons c bytes =>
          rw [withoutComments, withoutCommentsFrom] at hitems
          rcases CommentState.eq_of_shown (List.cons.inj hitems).1 with rfl | rfl
          · exact .number step_eq
          · exact absurd step_eq (token.step_ne_more (by decide) longer)

/-- **Blanks and comments between tokens mean nothing.** Wherever an accepted text is cut in two
outside strings and comments, and not inside a number or a word, blanks or a comment may be put in,
whatever the comment says, and the same script is read. -/
theorem parseInMemory_gap {before after gap : String} {script : Script}
    (hscript : parseInMemory (before ++ after) = .ok script)
    (hplace : BetweenTokens before after) (hgap : Gap gap) :
    parseInMemory (before ++ gap ++ after) = .ok script := by
  obtain ⟨first, hfirst, hnot⟩ := hplace
  obtain ⟨blanks, hblanks, hblank⟩ := hgap.pieces
  rw [parseInMemory_eq_ok_iff, bytesOf_append] at hscript
  obtain ⟨whole, r', v, hwhole, hrun, hfinish, hmerged⟩ := ofBytes_eq_ok_iff.1 hscript
  obtain ⟨second, hsecond, rfl⟩ := (uncommented_append_iff hfirst _).1 hwhole
  -- the reader in front of the gap
  obtain ⟨r, hrunFirst, hrunSecond⟩ := Reader.run_append_eq_ok_iff.1 hrun
  have hlexer := (Reader.lexer_of_run Reader.proper_start hrunFirst).2
  have hstring := lexer_ne_string hfirst hrunFirst hrunSecond hfinish
  have hcontinues : ¬ r.lexer.Continues second := fun h =>
    hnot _ hlexer (continues_of_uncommented hsecond h)
  obtain ⟨r'', hrun'', hfinish''⟩ :=
    Reader.run_through_blanks hstring hcontinues hblank hrunSecond hfinish
  -- the text with the gap in it
  have hgapped : Uncommented (bytesOf before ++ (bytesOf gap ++ bytesOf after))
      (first ++ (blanks ++ second)) :=
    (uncommented_append_iff hfirst _).2 ⟨_, (uncommented_append_iff hblanks _).2 ⟨_, hsecond, rfl⟩, rfl⟩
  rw [parseInMemory_eq_ok_iff, bytesOf_append, bytesOf_append, List.append_assoc]
  refine ofBytes_eq_ok_iff.2 ⟨_, r'', v, hgapped, ?_, hfinish'', hmerged⟩
  rw [Reader.run_append_of_ok hrunFirst, hrun'']

/-- Behind a string that holds two slashes, a comment is put in that holds a quotation mark, a bracket
and the beginnings of other comments. -/
theorem parseInMemory_gap_behind_string :
    parseInMemory ("[\"//\"" ++ ("/*" ++ " ] \" ü // /* *" ++ "*/") ++ ",[\"genvar\"]]") =
      .ok [.text "//", .call .genVar []] := by
  have hbytes : bytesOf "[\"//\"" = [Byte.openBracket] ++
      (Byte.quotationMark :: ([Byte.slash, Byte.slash] ++ [Byte.quotationMark]) ++ []) := rfl
  have hstring : Quotable [Byte.slash, Byte.slash] :=
    .plain (by decide) (by decide) (.plain (by decide) (by decide) .nil)
  have hbefore : Pieces (bytesOf "[\"//\"") (bytesOf "[\"//\"") := by
    rw [hbytes]
    exact .cons (.byte (by decide) (by decide)) (.cons (.string hstring) .nil)
  have hbehind : Lexer.between.behind? (bytesOf "[\"//\"") = some .between := rfl
  have hopen : ¬ ['*', '/'] <:+: (" ] \" ü // /* *").toList := by simp [List.infix_cons_iff]
  refine parseInMemory_gap (by rfl) ⟨_, hbefore, ?_⟩ (.block hopen)
  rw [hbehind]
  rintro _ ⟨⟩
  nofun

end RuleScript.Script
