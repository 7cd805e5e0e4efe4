import Mathlib.Tactic.Common
import RuleScript.Script.Comments

/-!
The pieces that the text of a script is made of: strings, comments, and single bytes between them.

* `Comment`, `Piece`, `Pieces`: what a piece is, with what is left of it when comments become blanks;
* `Uncommented`: the texts of whole pieces, a line comment without line feed at the end included;
* `Broken`: the texts with a slash that begins no comment, and those that end inside a piece;
* `uncommented_or_broken`: there are no other texts;
* `CommentState.Leaves`: what is handed on of some bytes, from one state to another; whole pieces are
  taken from outside strings to outside strings (`Pieces.leaves`);
* `CommentState.Leaves.inBlock_iff`: the places inside block comments, as the automaton of the comments
  and as the pieces tell them (`EndsInBlock`);
* `withoutComments_eq_ofBytes_iff`: taking the comments out succeeds exactly on the texts of the
  first kind, and leaves what is left of their pieces.
-/

namespace RuleScript.Script

open RuleScript.Json

/-! ### Pieces -/

/-- A run of spaces. -/
def spaces (n : ℕ) : List UInt8 := List.replicate n Byte.space

/-- The bytes between two quotation marks: none of them is a quotation mark, save behind a backslash
that belongs to it. -/
inductive Quotable : List UInt8 → Prop
  | nil : Quotable []
  | plain {b : UInt8} {rest : List UInt8} (ne_quotationMark : b ≠ Byte.quotationMark)
      (ne_backslash : b ≠ Byte.backslash) (quotable : Quotable rest) : Quotable (b :: rest)
  | escape (b : UInt8) {rest : List UInt8} (quotable : Quotable rest) :
    Quotable (Byte.backslash :: b :: rest)

/-- A closed comment, and what is left of it: a space for each of its bytes, but for the line feed
that ends a line comment. -/
inductive Comment : List UInt8 → List UInt8 → Prop
  | block {body : List UInt8} (notClosed : ¬ [Byte.asterisk, Byte.slash] <:+: body) :
    Comment (Byte.slash :: Byte.asterisk :: (body ++ [Byte.asterisk, Byte.slash]))
      (spaces (body.length + 4))
  | line {body : List UInt8} (notClosed : Byte.lineFeed ∉ body) :
    Comment (Byte.slash :: Byte.slash :: (body ++ [Byte.lineFeed]))
      (spaces (body.length + 2) ++ [Byte.lineFeed])

/-- A piece of a text, and what is left of it: all of it, unless it is a comment. -/
inductive Piece : List UInt8 → List UInt8 → Prop
  | byte {b : UInt8} (ne_quotationMark : b ≠ Byte.quotationMark) (ne_slash : b ≠ Byte.slash) :
    Piece [b] [b]
  | string {body : List UInt8} (quotable : Quotable body) :
    Piece (Byte.quotationMark :: (body ++ [Byte.quotationMark]))
      (Byte.quotationMark :: (body ++ [Byte.quotationMark]))
  | comment {bytes left : List UInt8} (comment : Comment bytes left) : Piece bytes left

/-- Whole pieces, one behind the other, and what is left of them. -/
inductive Pieces : List UInt8 → List UInt8 → Prop
  | nil : Pieces [] []
  | cons {first left rest later : List UInt8} (piece : Piece first left)
      (pieces : Pieces rest later) : Pieces (first ++ rest) (left ++ later)

/-- A text that ends outside strings and block comments, and what is left of it without its
comments. -/
inductive Uncommented : List UInt8 → List UInt8 → Prop
  | whole {bytes left : List UInt8} (pieces : Pieces bytes left) : Uncommented bytes left
  | inLine {bytes left body : List UInt8} (pieces : Pieces bytes left)
      (notClosed : Byte.lineFeed ∉ body) :
    Uncommented (bytes ++ Byte.slash :: Byte.slash :: body) (left ++ spaces (body.length + 2))

/-- A text whose comments cannot be taken out. -/
inductive Broken : List UInt8 → Prop
  | loneSlash {bytes left : List UInt8} (pieces : Pieces bytes left) {b : UInt8}
      (ne_asterisk : b ≠ Byte.asterisk) (ne_slash : b ≠ Byte.slash) (rest : List UInt8) :
    Broken (bytes ++ Byte.slash :: b :: rest)
  | behindSlash {bytes left : List UInt8} (pieces : Pieces bytes left) :
    Broken (bytes ++ [Byte.slash])
  | inString {bytes left body : List UInt8} (pieces : Pieces bytes left)
      (quotable : Quotable body) : Broken (bytes ++ Byte.quotationMark :: body)
  | inEscape {bytes left body : List UInt8} (pieces : Pieces bytes left)
      (quotable : Quotable body) :
    Broken (bytes ++ Byte.quotationMark :: (body ++ [Byte.backslash]))
  | inBlock {bytes left body : List UInt8} (pieces : Pieces bytes left)
      (notClosed : ¬ [Byte.asterisk, Byte.slash] <:+: body) :
    Broken (bytes ++ Byte.slash :: Byte.asterisk :: body)

/-- A text that ends inside a block comment: behind whole pieces one is opened, and it is not
closed. -/
def EndsInBlock (bytes : List UInt8) : Prop :=
  ∃ first left body, Pieces first left ∧ bytes = first ++ Byte.slash :: Byte.asterisk :: body ∧
    ¬ [Byte.asterisk, Byte.slash] <:+: body

variable {bytes left rest later body first : List UInt8}

lemma Pieces.append (h₁ : Pieces bytes left) (h₂ : Pieces rest later) :
    Pieces (bytes ++ rest) (left ++ later) := by
  induction h₁ with
  | nil => exact h₂
  | cons piece _ ih =>
      rw [List.append_assoc, List.append_assoc]
      exact .cons piece ih

lemma Uncommented.cons (piece : Piece first left) (h : Uncommented rest later) :
    Uncommented (first ++ rest) (left ++ later) := by
  cases h with
  | whole pieces => exact .whole (.cons piece pieces)
  | inLine pieces notClosed =>
      rw [← List.append_assoc, ← List.append_assoc]
      exact .inLine (.cons piece pieces) notClosed

lemma Broken.cons (piece : Piece first left) (h : Broken rest) : Broken (first ++ rest) := by
  cases h with
  | loneSlash pieces ne_asterisk ne_slash rest =>
      rw [← List.append_assoc]
      exact .loneSlash (.cons piece pieces) ne_asterisk ne_slash rest
  | behindSlash pieces =>
      rw [← List.append_assoc]
      exact .behindSlash (.cons piece pieces)
  | inString pieces quotable =>
      rw [← List.append_assoc]
      exact .inString (.cons piece pieces) quotable
  | inEscape pieces quotable =>
      rw [← List.append_assoc]
      exact .inEscape (.cons piece pieces) quotable
  | inBlock pieces notClosed =>
      rw [← List.append_assoc]
      exact .inBlock (.cons piece pieces) notClosed

/-! ### Every text is of one of the two kinds -/

/-- Behind an opening quotation mark a string is closed, or the text ends inside it. -/
lemma quotable_or : ∀ bytes : List UInt8,
    (∃ body rest, bytes = body ++ Byte.quotationMark :: rest ∧ Quotable body) ∨
      Quotable bytes ∨ ∃ body, bytes = body ++ [Byte.backslash] ∧ Quotable body
  | [] => .inr (.inl .nil)
  | [b] => by
      by_cases hquote : b = Byte.quotationMark
      · exact .inl ⟨[], [], by simp [hquote], .nil⟩
      by_cases hbackslash : b = Byte.backslash
      · exact .inr (.inr ⟨[], by simp [hbackslash], .nil⟩)
      · exact .inr (.inl (.plain hquote hbackslash .nil))
  | b :: c :: bytes => by
      by_cases hquote : b = Byte.quotationMark
      · exact .inl ⟨[], c :: bytes, by simp [hquote], .nil⟩
      by_cases hbackslash : b = Byte.backslash
      · subst hbackslash
        rcases quotable_or bytes with ⟨body, rest, rfl, h⟩ | h | ⟨body, rfl, h⟩
        · exact .inl ⟨Byte.backslash :: c :: body, rest, rfl, .escape c h⟩
        · exact .inr (.inl (.escape c h))
        · exact .inr (.inr ⟨Byte.backslash :: c :: body, rfl, .escape c h⟩)
      · rcases quotable_or (c :: bytes) with ⟨body, rest, heq, h⟩ | h | ⟨body, heq, h⟩
        · exact .inl ⟨b :: body, rest, by rw [heq]; rfl, .plain hquote hbackslash h⟩
        · exact .inr (.inl (.plain hquote hbackslash h))
        · exact .inr (.inr ⟨b :: body, by rw [heq]; rfl, .plain hquote hbackslash h⟩)

/-- Two things stand side by side in a list where they do in its tail, or where they are its first
two. -/
lemma pair_infix_cons_iff {α : Type} (x y a : α) (l : List α) :
    [x, y] <:+: a :: l ↔ (a = x ∧ l.head? = some y) ∨ [x, y] <:+: l := by
  rw [List.infix_cons_iff]
  refine or_congr ?_ Iff.rfl
  cases l with
  | nil => simp
  | cons b l => simp [eq_comm]

/-- Behind the beginning of a block comment the comment is closed, or the text ends inside it. -/
lemma exists_closing_of_infix (h : [Byte.asterisk, Byte.slash] <:+: bytes) :
    ∃ body rest, bytes = body ++ Byte.asterisk :: Byte.slash :: rest ∧
      ¬ [Byte.asterisk, Byte.slash] <:+: body := by
  induction bytes with
  | nil => simp at h
  | cons b bytes ih =>
      by_cases hhere : b = Byte.asterisk ∧ bytes.head? = some Byte.slash
      · obtain ⟨rfl, hhead⟩ := hhere
        obtain ⟨rest, rfl⟩ := List.head?_eq_some_iff.1 hhead
        exact ⟨[], rest, rfl, by simp⟩
      · have hlater := ((pair_infix_cons_iff _ _ b bytes).1 h).resolve_left hhere
        obtain ⟨body, rest, rfl, hopen⟩ := ih hlater
        refine ⟨b :: body, rest, rfl, ?_⟩
        rw [pair_infix_cons_iff]
        rintro (⟨rfl, hhead⟩ | hinside)
        · obtain ⟨body, rfl⟩ := List.head?_eq_some_iff.1 hhead
          exact hhere ⟨rfl, rfl⟩
        · exact hopen hinside

/-- A text that begins with a slash begins with a comment, is one that is not closed, or is broken
right there. -/
lemma comment_or (rest : List UInt8) :
    (∃ first left after, Comment first left ∧ Byte.slash :: rest = first ++ after) ∨
      (∃ left, Uncommented (Byte.slash :: rest) left) ∨ Broken (Byte.slash :: rest) := by
  cases rest with
  | nil => exact .inr (.inr (.behindSlash .nil))
  | cons b rest =>
      by_cases hblock : b = Byte.asterisk
      · subst hblock
        by_cases hclosed : [Byte.asterisk, Byte.slash] <:+: rest
        · obtain ⟨body, after, rfl, hopen⟩ := exists_closing_of_infix hclosed
          exact .inl ⟨_, _, after, .block hopen, by simp⟩
        · exact .inr (.inr (.inBlock .nil hclosed))
      by_cases hline : b = Byte.slash
      · subst hline
        by_cases hclosed : Byte.lineFeed ∈ rest
        · obtain ⟨body, after, rfl, hopen⟩ := List.eq_append_cons_of_mem hclosed
          exact .inl ⟨_, _, after, .line hopen, by simp⟩
        · exact .inr (.inl ⟨_, .inLine .nil hclosed⟩)
      · exact .inr (.inr (.loneSlash .nil hblock hline rest))

/-- A text that is not empty begins with a piece, unless the piece at its beginning is not closed
or the text is broken right there. -/
lemma piece_or (b : UInt8) (rest : List UInt8) :
    (∃ first left after, Piece first left ∧ b :: rest = first ++ after) ∨
      (∃ left, Uncommented (b :: rest) left) ∨ Broken (b :: rest) := by
  by_cases hquote : b = Byte.quotationMark
  · subst hquote
    rcases quotable_or rest with ⟨body, after, rfl, h⟩ | h | ⟨body, rfl, h⟩
    · exact .inl ⟨_, _, after, .string h, by simp⟩
    · exact .inr (.inr (.inString .nil h))
    · exact .inr (.inr (.inEscape .nil h))
  by_cases hslash : b = Byte.slash
  · subst hslash
    rcases comment_or rest with ⟨first, left, after, h, heq⟩ | hrest
    · exact .inl ⟨first, left, after, .comment h, heq⟩
    · exact .inr hrest
  · exact .inl ⟨[b], [b], rest, .byte hquote hslash, rfl⟩

lemma Piece.ne_nil (h : Piece first left) : first ≠ [] := by
  cases h with
  | byte _ _ => simp
  | string _ => simp
  | comment comment => cases comment <;> simp

/-- The comments of a text can be taken out, or it is broken. -/
theorem uncommented_or_broken (bytes : List UInt8) :
    (∃ left, Uncommented bytes left) ∨ Broken bytes := by
  induction hn : bytes.length using Nat.strongRecOn generalizing bytes with
  | _ n ih =>
      cases bytes with
      | nil => exact .inl ⟨[], .whole .nil⟩
      | cons b rest =>
          rcases piece_or b rest with ⟨first, left, after, piece, heq⟩ | hrest
          · have hlt : after.length < n := by
              have hpos := List.length_pos_iff.2 piece.ne_nil
              rw [← hn, heq, List.length_append]
              omega
            rw [heq]
            rcases ih after.length hlt after rfl with ⟨later, h⟩ | h
            · exact .inl ⟨left ++ later, h.cons piece⟩
            · exact .inr (h.cons piece)
          · exact hrest

/-! ### What is handed on -/

/-- Two lists of bytes that give the same items are the same. -/
lemma eq_of_map_byte (h : first.map Feed.Item.byte = rest.map .byte) : first = rest := by
  have hbyte : ∀ b c, Feed.Item.byte b = .byte c → b = c := fun _ _ => Feed.Item.byte.inj
  exact (List.map_inj_right hbyte).1 h

namespace CommentState

variable {s t u : CommentState} {b c : UInt8}

/-- Inside a block comment. -/
def InBlock (s : CommentState) : Prop := s = .block ∨ s = .blockAsterisk

instance : DecidablePred InBlock := fun _ => inferInstanceAs (Decidable (_ ∨ _))

/-- Of the bytes, which lead from one state to another, those in `left` are handed on. -/
structure Leaves (s : CommentState) (bytes left : List UInt8) (t : CommentState) : Prop where
  items_eq : (withoutCommentsFrom s bytes).items = left.map .byte
  behind_eq : s.behind bytes = t

lemma Leaves.nil (s : CommentState) : Leaves s [] [] s := ⟨rfl, rfl⟩

/-- What is handed on of bytes one after another is handed on one after another. -/
lemma Leaves.append (h₁ : Leaves s bytes left t) (h₂ : Leaves t rest later u) :
    Leaves s (bytes ++ rest) (left ++ later) u := by
  refine ⟨?_, ?_⟩
  · rw [items_append, h₁.items_eq, h₁.behind_eq, h₂.items_eq, List.map_append]
  · rw [behind, List.foldl_append, ← behind, ← behind, h₁.behind_eq, h₂.behind_eq]

lemma Leaves.cons (hshown : s.shown b = .byte c) (hnext : s.next b = t)
    (h : Leaves t bytes left u) : Leaves s (b :: bytes) (c :: left) u := by
  refine ⟨?_, ?_⟩
  · rw [withoutCommentsFrom, hshown, hnext, h.items_eq, List.map_cons]
  · rw [behind, List.foldl_cons, hnext, ← behind, h.behind_eq]

/-- Whatever stands behind some bytes is taken from the state behind them. -/
lemma Leaves.withoutComments_append (h : Leaves .code bytes left t) (rest : List UInt8) :
    withoutComments (bytes ++ rest) =
      ⟨left.map .byte ++ (withoutCommentsFrom t rest).items, (withoutCommentsFrom t rest).ending⟩ := by
  have hitems : (withoutComments (bytes ++ rest)).items =
      left.map .byte ++ (withoutCommentsFrom t rest).items := by
    rw [withoutComments, items_append, h.items_eq, h.behind_eq]
  have hending : (withoutComments (bytes ++ rest)).ending =
      (withoutCommentsFrom t rest).ending := by
    rw [withoutComments, ending_withoutCommentsFrom, ending_withoutCommentsFrom, ← h.behind_eq,
      behind, List.foldl_append]
    rfl
  rw [← hitems, ← hending]

/-- A text that ends where it may end becomes a feed of bytes. -/
lemma Leaves.withoutComments_eq (h : Leaves .code bytes left t) (hend : t.ending = none) :
    withoutComments bytes = .ofBytes left := by
  have happend := h.withoutComments_append []
  rw [List.append_nil, withoutCommentsFrom, hend, List.append_nil] at happend
  exact happend

/-- A text that ends where it must not end does not become a feed of bytes. -/
lemma Leaves.withoutComments_ne (h : Leaves .code bytes left t) (hend : t.ending ≠ none)
    (later : List UInt8) : withoutComments bytes ≠ .ofBytes later := by
  intro heq
  apply hend
  rw [← h.behind_eq, ← ending_withoutCommentsFrom, ← withoutComments, heq]
  rfl

/-- The inside of a string is handed on as it is. -/
lemma leaves_quotable (h : Quotable body) : Leaves .string body body .string := by
  induction h with
  | nil => exact .nil _
  | plain ne_quotationMark ne_backslash _ ih =>
      exact .cons rfl (by simp [next, ne_quotationMark, ne_backslash]) ih
  | escape b _ ih => exact .cons (t := .escape) rfl rfl (.cons rfl rfl ih)

/-- The inside of a line comment becomes spaces. -/
lemma leaves_line (h : Byte.lineFeed ∉ body) : Leaves .line body (spaces body.length) .line := by
  induction body with
  | nil => exact .nil _
  | cons b body ih =>
      obtain ⟨hne, hbody⟩ : b ≠ Byte.lineFeed ∧ Byte.lineFeed ∉ body := by
        simpa [eq_comm] using h
      exact .cons (by simp [shown, hne]) (by simp [next, hne]) (ih hbody)

/-- The inside of a block comment becomes spaces, and the comment goes on behind it. The state tells
whether the byte before was an asterisk, so that no slash may come. -/
lemma leaves_block (hs : s = .block ∨ s = .blockAsterisk)
    (hopen : ¬ [Byte.asterisk, Byte.slash] <:+: body)
    (hfirst : s = .blockAsterisk → body.head? ≠ some Byte.slash) :
    ∃ t, (t = .block ∨ t = .blockAsterisk) ∧ Leaves s body (spaces body.length) t := by
  induction body generalizing s with
  | nil => exact ⟨s, hs, .nil s⟩
  | cons b body ih =>
      rw [pair_infix_cons_iff, not_or] at hopen
      have hshown : s.shown b = .byte Byte.space := by rcases hs with rfl | rfl <;> rfl
      have hnext : s.next b = if b = Byte.asterisk then .blockAsterisk else .block := by
        rcases hs with rfl | rfl
        · rfl
        · have hne : b ≠ Byte.slash := by simpa using hfirst rfl
          simp [next, hne]
      by_cases hb : b = Byte.asterisk
      · obtain ⟨t, ht, hleaves⟩ := ih (.inr rfl) hopen.2 fun _ hhead => hopen.1 ⟨hb, hhead⟩
        exact ⟨t, ht, .cons hshown (by rw [hnext, if_pos hb]) hleaves⟩
      · obtain ⟨t, ht, hleaves⟩ := ih (.inl rfl) hopen.2 (by simp)
        exact ⟨t, ht, .cons hshown (by rw [hnext, if_neg hb]) hleaves⟩

end CommentState

open CommentState

lemma spaces_add (m n : ℕ) : spaces (m + n) = spaces m ++ spaces n :=
  List.replicate_append_replicate.symm

lemma Comment.leaves (h : Comment bytes left) : Leaves .code bytes left .code := by
  cases h with
  | @block body notClosed =>
      obtain ⟨t, ht, hbody⟩ := leaves_block (.inl rfl) notClosed (by simp)
      have hclose : Leaves t [Byte.asterisk, Byte.slash] (spaces 2) .code := by
        rcases ht with rfl | rfl <;> exact ⟨rfl, rfl⟩
      have hspaces : spaces (body.length + 4) = spaces 2 ++ (spaces body.length ++ spaces 2) := by
        rw [← spaces_add, ← spaces_add]
        congr 1
        omega
      rw [hspaces]
      exact .cons (t := .slash) rfl rfl (.cons rfl rfl (hbody.append hclose))
  | @line body notClosed =>
      have hclose : Leaves .line [Byte.lineFeed] [Byte.lineFeed] .code := ⟨rfl, rfl⟩
      have hspaces : spaces (body.length + 2) = spaces 2 ++ spaces body.length := by
        rw [← spaces_add, Nat.add_comm]
      rw [hspaces, List.append_assoc]
      exact .cons (t := .slash) rfl rfl (.cons rfl rfl ((leaves_line notClosed).append hclose))

lemma Piece.leaves (h : Piece bytes left) : Leaves .code bytes left .code := by
  cases h with
  | byte ne_quotationMark ne_slash =>
      exact .cons (by simp [shown, ne_slash]) (by simp [next, ne_quotationMark, ne_slash]) (.nil _)
  | string quotable =>
      have hclose : Leaves .string [Byte.quotationMark] [Byte.quotationMark] .code := ⟨rfl, rfl⟩
      exact .cons (t := .string) rfl rfl ((leaves_quotable quotable).append hclose)
  | comment comment => exact comment.leaves

/-- Whole pieces lead from outside strings and comments to outside strings and comments. -/
lemma Pieces.leaves (h : Pieces bytes left) : Leaves .code bytes left .code := by
  induction h with
  | nil => exact .nil _
  | cons piece _ ih => exact piece.leaves.append ih

lemma Uncommented.leaves (h : Uncommented bytes left) :
    ∃ t, t.ending = none ∧ Leaves .code bytes left t := by
  cases h with
  | whole pieces => exact ⟨.code, rfl, pieces.leaves⟩
  | @inLine bytes left body pieces notClosed =>
      have hspaces : spaces (body.length + 2) = spaces 2 ++ spaces body.length := by
        rw [← spaces_add, Nat.add_comm]
      rw [hspaces]
      refine ⟨.line, rfl, pieces.leaves.append ?_⟩
      exact .cons (t := .slash) rfl rfl (.cons rfl rfl (leaves_line notClosed))

/-- A text that ends inside a block comment leads there. -/
lemma EndsInBlock.leaves (h : EndsInBlock bytes) :
    ∃ left t, t.InBlock ∧ Leaves .code bytes left t := by
  obtain ⟨first, left, body, pieces, rfl, notClosed⟩ := h
  obtain ⟨t, ht, hbody⟩ := leaves_block (.inl rfl) notClosed (by simp)
  have hblock : Leaves .code (Byte.slash :: Byte.asterisk :: body) _ t :=
    .cons (t := .slash) rfl rfl (.cons rfl rfl hbody)
  exact ⟨_, t, ht, pieces.leaves.append hblock⟩

/-- Of a broken text some byte is not handed on, or it leads to where a text must not end. -/
lemma Broken.fault_or_leaves (h : Broken bytes) :
    .fault .invalidData ∈ (withoutComments bytes).items ∨ EndsInBlock bytes ∨
      ∃ left t, Leaves .code bytes left t ∧ t.ending ≠ none ∧ ¬ t.InBlock := by
  cases h with
  | @loneSlash bytes handed pieces b ne_asterisk ne_slash rest =>
      left
      have hslash : shown .slash b = .fault .invalidData := by
        simp [shown, ne_asterisk, ne_slash]
      have hnext : next .code Byte.slash = .slash := rfl
      rw [pieces.leaves.withoutComments_append, withoutCommentsFrom, hnext, withoutCommentsFrom,
        hslash]
      simp
  | behindSlash pieces =>
      have hslash : Leaves .code [Byte.slash] [Byte.space] .slash := ⟨rfl, rfl⟩
      exact .inr (.inr ⟨_, .slash, pieces.leaves.append hslash, by decide, by decide⟩)
  | inString pieces quotable =>
      have hstring : Leaves .code (Byte.quotationMark :: _) _ .string :=
        .cons rfl rfl (leaves_quotable quotable)
      exact .inr (.inr ⟨_, .string, pieces.leaves.append hstring, by decide, by decide⟩)
  | inEscape pieces quotable =>
      have hbackslash : Leaves .string [Byte.backslash] [Byte.backslash] .escape := ⟨rfl, rfl⟩
      have hstring : Leaves .code (Byte.quotationMark :: _) _ .escape :=
        .cons rfl rfl ((leaves_quotable quotable).append hbackslash)
      exact .inr (.inr ⟨_, .escape, pieces.leaves.append hstring, by decide, by decide⟩)
  | inBlock pieces notClosed => exact .inr (.inl ⟨_, _, _, pieces, rfl, notClosed⟩)

/-- The comments of a broken text are not taken out. -/
lemma Broken.withoutComments_ne (h : Broken bytes) (left : List UInt8) :
    withoutComments bytes ≠ .ofBytes left := by
  rcases h.fault_or_leaves with hfault | hblock | ⟨handed, t, hleaves, hend, -⟩
  · intro heq
    have hmem : Feed.Item.fault .invalidData ∈ left.map Feed.Item.byte := by
      rw [heq] at hfault
      exact hfault
    simp at hmem
  · obtain ⟨handed, t, ht, hleaves⟩ := hblock.leaves
    refine hleaves.withoutComments_ne ?_ left
    rcases ht with rfl | rfl <;> decide
  · exact hleaves.withoutComments_ne hend left

/-- Taking out the comments of a text succeeds exactly if the text is whole pieces, up to a line
comment at its end, and gives what is left of them. -/
theorem withoutComments_eq_ofBytes_iff (bytes left : List UInt8) :
    withoutComments bytes = .ofBytes left ↔ Uncommented bytes left := by
  constructor
  · intro h
    rcases uncommented_or_broken bytes with ⟨later, hbytes⟩ | hbroken
    · obtain ⟨t, hend, hleaves⟩ := hbytes.leaves
      rw [hleaves.withoutComments_eq hend] at h
      rw [← eq_of_map_byte (Feed.mk.inj h).1]
      exact hbytes
    · exact absurd h (hbroken.withoutComments_ne left)
  · intro h
    obtain ⟨t, hend, hleaves⟩ := h.leaves
    exact hleaves.withoutComments_eq hend

/-- Bytes that are all handed on lead into a block comment exactly if they end inside one. -/
theorem CommentState.Leaves.inBlock_iff (h : Leaves .code bytes left t) :
    t.InBlock ↔ EndsInBlock bytes := by
  constructor
  · intro hblock
    rcases uncommented_or_broken bytes with ⟨later, huncommented⟩ | hbroken
    · obtain ⟨u, hend, hleaves⟩ := huncommented.leaves
      obtain rfl := hleaves.behind_eq.symm.trans h.behind_eq
      rcases hblock with rfl | rfl <;> cases hend
    · rcases hbroken.fault_or_leaves with hfault | hends | ⟨later, u, hleaves, -, hnot⟩
      · rw [withoutComments, h.items_eq] at hfault
        simp at hfault
      · exact hends
      · obtain rfl := hleaves.behind_eq.symm.trans h.behind_eq
        exact absurd hblock hnot
  · intro hends
    obtain ⟨later, u, hu, hleaves⟩ := hends.leaves
    obtain rfl := hleaves.behind_eq.symm.trans h.behind_eq
    exact hu

/-- Behind whole pieces, the comments of the rest of a text are taken out as if it stood alone. -/
theorem uncommented_append_iff (h : Pieces bytes left) (whole : List UInt8) :
    Uncommented (bytes ++ rest) whole ↔ ∃ later, Uncommented rest later ∧ whole = left ++ later := by
  constructor
  · intro huncommented
    have hwhole := (withoutComments_eq_ofBytes_iff _ _).2 huncommented
    rw [h.leaves.withoutComments_append] at hwhole
    obtain ⟨hitems, hending⟩ := Feed.mk.inj hwhole
    obtain ⟨first, later, rfl, hfirst, hlater⟩ := List.map_eq_append_iff.1 hitems.symm
    obtain rfl := eq_of_map_byte hfirst
    refine ⟨later, (withoutComments_eq_ofBytes_iff _ _).1 ?_, rfl⟩
    rw [withoutComments, Feed.ofBytes, hlater, ← hending]
  · rintro ⟨later, hrest, rfl⟩
    induction h with
    | nil => exact hrest
    | cons piece _ ih =>
        rw [List.append_assoc, List.append_assoc]
        exact ih.cons piece

/-! ### What is left has no comments -/

lemma pieces_of_forall (h : ∀ b ∈ bytes, b ≠ Byte.quotationMark ∧ b ≠ Byte.slash) :
    Pieces bytes bytes := by
  induction bytes with
  | nil => exact .nil
  | cons b bytes ih =>
      obtain ⟨hquote, hslash⟩ := h b (by simp)
      exact .cons (.byte hquote hslash) (ih fun c hc => h c (by simp [hc]))

lemma pieces_spaces (n : ℕ) : Pieces (spaces n) (spaces n) := by
  refine pieces_of_forall fun b hb => ?_
  rw [List.eq_of_mem_replicate hb]
  decide

lemma Piece.pieces_left (h : Piece bytes left) : Pieces left left := by
  cases h with
  | byte ne_quotationMark ne_slash => exact .cons (.byte ne_quotationMark ne_slash) .nil
  | string quotable =>
      have hpiece := Pieces.cons (.string quotable) .nil
      rw [List.append_nil] at hpiece
      exact hpiece
  | comment comment =>
      cases comment with
      | block _ => exact pieces_spaces _
      | line _ =>
          have hlineFeed : Piece [Byte.lineFeed] [Byte.lineFeed] := .byte (by decide) (by decide)
          exact (pieces_spaces _).append (.cons hlineFeed .nil)

lemma Pieces.pieces_left (h : Pieces bytes left) : Pieces left left := by
  induction h with
  | nil => exact .nil
  | cons piece _ ih => exact piece.pieces_left.append ih

/-- What is left of a text is itself a text without comments, of which everything is left. -/
theorem Uncommented.again (h : Uncommented bytes left) : Uncommented left left := by
  cases h with
  | whole pieces => exact .whole pieces.pieces_left
  | inLine pieces _ => exact .whole (pieces.pieces_left.append (pieces_spaces _))

end RuleScript.Script
