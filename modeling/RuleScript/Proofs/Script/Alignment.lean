import RuleScript.Proofs.Json.Between
import RuleScript.Proofs.Script.Intact
import RuleScript.Proofs.Script.Pieces

/-!
Strings as the comments see them and strings as the reader sees them.

* `placeOf`: the side of a quotation mark on which the next byte stands, told from the token that is
  being read;
* `Doomed`: a string in which a byte in the place of a hexadecimal digit is none. The reader takes four
  bytes before it looks at them, and a quotation mark may be among them, so that the two go apart; but
  such a string is never closed;
* `placeOf_of_step`, `placeOf_of_behind?`: otherwise the two go through a text side by side;
* `lexer_ne_string`: behind whole pieces the reader is outside strings.
-/

namespace RuleScript.Script

open RuleScript.Json

/-! ### Inside a string -/

section Strings

variable {s t : StringToken} {b : UInt8} {digits : List UInt8}

/-- Where the next byte of a string stands for the comments. -/
def placeIn (s : StringToken) : CommentState :=
  match s.phase with
  | .letter | .pairLetter _ => .escape
  | _ => .string

/-- The digits of a unit that have been read. -/
def digitsOf (s : StringToken) : List UInt8 :=
  match s.phase with
  | .unit digits | .pairUnit _ digits => digits
  | _ => []

/-- One of the digits of a unit is none. -/
def Doomed (s : StringToken) : Prop := ∃ d ∈ digitsOf s, hexDigit? d = none

/-- A number is written by hexadecimal digits only. -/
lemma isHex_of_hexValue? {n : ℕ} (h : hexValue? digits = some n) :
    ∀ d ∈ digits, (hexDigit? d).isSome := by
  have hnone : ∀ digits : List UInt8, digits.foldl
      (fun value? b => do return 16 * (← value?) + (← hexDigit? b)) (none : Option ℕ) = none := by
    intro digits
    induction digits with
    | nil => rfl
    | cons d digits ih => exact ih
  rw [hexValue?] at h
  generalize 0 = start at h
  induction digits generalizing start with
  | nil => simp
  | cons d digits ih =>
      rw [List.foldl_cons] at h
      cases hd : hexDigit? d with
      | none =>
          rw [hd] at h
          exact absurd ((hnone digits).symm.trans h) (by simp)
      | some value =>
          rw [hd] at h
          exact List.forall_mem_cons.2 ⟨by simp [hd], ih _ h⟩

/-- Four digits that are taken are hexadecimal. -/
lemma takeUnit_eq_ok (h : s.takeUnit digits = .ok t) :
    (∀ d ∈ digits, (hexDigit? d).isSome) ∧ placeIn t = .string := by
  rw [StringToken.takeUnit] at h
  cases hvalue : hexValue? digits with
  | none =>
      rw [hvalue] at h
      cases h
  | some unit =>
      rw [hvalue] at h
      dsimp only at h
      split at h
      · cases h
      split at h <;>
      · obtain rfl := Except.ok.inj h
        exact ⟨isHex_of_hexValue? hvalue, rfl⟩

/-- So are those of the second half of a pair. -/
lemma takeLowUnit_eq_ok {high : ℕ} (h : s.takeLowUnit high digits = .ok t) :
    (∀ d ∈ digits, (hexDigit? d).isSome) ∧ placeIn t = .string := by
  rw [StringToken.takeLowUnit] at h
  cases hvalue : hexValue? digits with
  | none =>
      rw [hvalue] at h
      cases h
  | some unit =>
      rw [hvalue] at h
      dsimp only at h
      split at h
      · obtain rfl := Except.ok.inj h
        exact ⟨isHex_of_hexValue? hvalue, rfl⟩
      · cases h

/-- A byte in the place of a digit is taken as one, whatever it is, until there are four; these must
be hexadecimal. -/
lemma step_digit {p : Progress StringToken String} (h : s.step b = .ok p)
    (hs : (∃ digits, s.phase = .unit digits) ∨ ∃ high digits, s.phase = .pairUnit high digits) :
    ∃ t, p = .more t ∧ placeIn t = .string ∧
      (digitsOf t = digitsOf s ++ [b] ∨ ∀ d ∈ digitsOf s ++ [b], (hexDigit? d).isSome) := by
  obtain ⟨collected, phase⟩ := s
  rw [StringToken.step] at h
  rcases hs with ⟨digits, rfl⟩ | ⟨high, digits, rfl⟩
  · dsimp only at h
    split at h
    · exact ⟨_, (Except.ok.inj h).symm, rfl, .inl rfl⟩
    · obtain ⟨t, ht, hp⟩ := map_eq_ok_iff.1 h
      exact ⟨t, hp.symm, (takeUnit_eq_ok ht).2, .inr (takeUnit_eq_ok ht).1⟩
  · dsimp only at h
    split at h
    · exact ⟨_, (Except.ok.inj h).symm, rfl, .inl rfl⟩
    · obtain ⟨t, ht, hp⟩ := map_eq_ok_iff.1 h
      exact ⟨t, hp.symm, (takeLowUnit_eq_ok ht).2, .inr (takeLowUnit_eq_ok ht).1⟩

/-- A doomed string stays so. -/
lemma Doomed.step {p : Progress StringToken String} (hs : Doomed s) (h : s.step b = .ok p) :
    ∃ t, p = .more t ∧ Doomed t := by
  obtain ⟨d, hd, hnone⟩ := hs
  have hphase : (∃ digits, s.phase = .unit digits) ∨
      ∃ high digits, s.phase = .pairUnit high digits := by
    obtain ⟨collected, phase⟩ := s
    cases phase with
    | unit digits => exact .inl ⟨digits, rfl⟩
    | pairUnit high digits => exact .inr ⟨high, digits, rfl⟩
    | _ => cases hd
  obtain ⟨t, rfl, -, hdigits | hall⟩ := step_digit h hphase
  · exact ⟨t, rfl, d, by rw [hdigits]; exact List.mem_append_left _ hd, hnone⟩
  · exact absurd (hall d (List.mem_append_left _ hd)) (by simp [hnone])

/-- In the place of a digit, the string goes on for the comments, or it is doomed. -/
lemma placeIn_of_digit (h : s.step b = .ok (.more t))
    (hs : (∃ digits, s.phase = .unit digits) ∨ ∃ high digits, s.phase = .pairUnit high digits) :
    Doomed t ∨ placeIn t = CommentState.next .string b := by
  obtain ⟨t, ht, hplace, hdigits⟩ := step_digit h hs
  obtain rfl := Progress.more.inj ht
  cases hb : hexDigit? b with
  | none =>
      rcases hdigits with hdigits | hall
      · exact .inl ⟨b, by simp [hdigits], hb⟩
      · exact absurd (hall b (by simp)) (by simp [hb])
  | some value =>
      obtain ⟨hquote, hbackslash⟩ := CommentState.ne_of_hexDigit? (b := b) (by simp [hb])
      exact .inr (by simp [hplace, CommentState.next, hquote, hbackslash])

/-- A string that goes on does so for the comments, unless it is doomed. -/
lemma placeIn_of_more (h : s.step b = .ok (.more t)) :
    Doomed t ∨ placeIn t = (placeIn s).next b := by
  obtain ⟨collected, phase⟩ := s
  cases phase with
  | unit digits => exact placeIn_of_digit h (.inl ⟨digits, rfl⟩)
  | pairUnit high digits => exact placeIn_of_digit h (.inr ⟨high, digits, rfl⟩)
  | plain =>
      rw [StringToken.step] at h
      dsimp only at h
      split at h
      · obtain ⟨x, -, hx⟩ := map_eq_ok_iff.1 h
        cases hx
      split at h
      · next hbackslash =>
        obtain rfl := Progress.more.inj (Except.ok.inj h)
        exact .inr (by rw [hbackslash]; rfl)
      split at h
      · cases h
      · next hquote hbackslash _ =>
        obtain rfl := Progress.more.inj (Except.ok.inj h)
        exact .inr (by simp [placeIn, StringToken.push, CommentState.next, hquote, hbackslash])
  | letter =>
      rw [StringToken.step] at h
      dsimp only at h
      split at h
      · obtain rfl := Progress.more.inj (Except.ok.inj h)
        exact .inr rfl
      split at h
      · obtain rfl := Progress.more.inj (Except.ok.inj h)
        exact .inr rfl
      · cases h
  | pairBackslash high =>
      rw [StringToken.step] at h
      dsimp only at h
      split at h
      · next hbackslash =>
        obtain rfl := Progress.more.inj (Except.ok.inj h)
        exact .inr (by rw [hbackslash]; rfl)
      · cases h
  | pairLetter high =>
      rw [StringToken.step] at h
      dsimp only at h
      split at h
      · obtain rfl := Progress.more.inj (Except.ok.inj h)
        exact .inr rfl
      · cases h

/-- A string that is closed is closed for the comments. -/
lemma placeIn_of_done {x : String} (h : s.step b = .ok (.done x)) :
    (placeIn s).next b = .code := by
  obtain ⟨collected, phase⟩ := s
  have hdigit : (∃ digits, phase = .unit digits) ∨ (∃ high digits, phase = .pairUnit high digits) →
      CommentState.next (placeIn ⟨collected, phase⟩) b = .code := by
    intro hphase
    obtain ⟨t, ht, -⟩ := step_digit h hphase
    cases ht
  cases phase with
  | unit digits => exact hdigit (.inl ⟨digits, rfl⟩)
  | pairUnit high digits => exact hdigit (.inr ⟨high, digits, rfl⟩)
  | plain =>
      rw [StringToken.step] at h
      dsimp only at h
      split at h
      · next hquote => rw [hquote]; rfl
      split at h
      · cases h
      split at h <;> cases h
  | letter =>
      rw [StringToken.step] at h
      dsimp only at h
      split at h
      · cases h
      split at h <;> cases h
  | pairBackslash high =>
      rw [StringToken.step] at h
      dsimp only at h
      split at h <;> cases h
  | pairLetter high =>
      rw [StringToken.step] at h
      dsimp only at h
      split at h <;> cases h

end Strings

/-! ### Side by side -/

section Alignment

variable {l l' : Lexer} {b : UInt8} {bytes left rest : List UInt8} {tokens : List Token}

/-- Where the next byte stands for the comments, told from the token that is being read. -/
def placeOf : Lexer → CommentState
  | .string token => placeIn token
  | _ => .code

/-- The letters that are still to come of a word are no quotation marks, and a string that is being
read is not doomed. -/
def Sound : Lexer → Prop
  | .string token => ¬ Doomed token
  | .literal token _ => Byte.quotationMark ∉ token.left
  | _ => True

/-- Outside strings only a quotation mark leads into one. -/
lemma placeOf_of_start (h : Lexer.start b = some (tokens, l)) (hslash : b ≠ Byte.slash) :
    placeOf l = CommentState.next .code b ∧ Sound l := by
  by_cases hquote : b = Byte.quotationMark
  · subst hquote
    obtain ⟨-, rfl⟩ := Prod.mk.inj (Option.some.inj h)
    exact ⟨rfl, by simp [Sound, Doomed, digitsOf, StringToken.opened]⟩
  have hnext : CommentState.next .code b = .code := by simp [CommentState.next, hquote, hslash]
  rw [hnext]
  unfold Lexer.start at h
  split at h
  · obtain ⟨-, rfl⟩ := Prod.mk.inj (Option.some.inj h)
    exact ⟨rfl, trivial⟩
  split at h
  · obtain ⟨-, rfl⟩ := Prod.mk.inj (Option.some.inj h)
    exact ⟨rfl, trivial⟩
  split at h
  · obtain ⟨-, rfl⟩ := Prod.mk.inj (Option.some.inj h)
    exact ⟨rfl, show Byte.quotationMark ∉ Literal.nullRest.left by decide⟩
  split at h
  · obtain ⟨-, rfl⟩ := Prod.mk.inj (Option.some.inj h)
    exact ⟨rfl, show Byte.quotationMark ∉ Literal.trueRest.left by decide⟩
  split at h
  · obtain ⟨-, rfl⟩ := Prod.mk.inj (Option.some.inj h)
    exact ⟨rfl, show Byte.quotationMark ∉ Literal.falseRest.left by decide⟩
  · obtain ⟨token, -, hl⟩ := Option.map_eq_some_iff.1 h
    obtain ⟨-, rfl⟩ := Prod.mk.inj hl
    exact ⟨rfl, trivial⟩

/-- A letter of a word is taken where it is the next one. -/
lemma mem_of_literal_step {token : Literal} {p : Progress Literal Unit} (h : token.step b = .ok p) :
    b ∈ token.left ∧ ∀ shorter, p = .more shorter → ∀ c ∈ shorter.left, c ∈ token.left := by
  obtain ⟨letters⟩ := token
  cases letters with
  | nil => cases h
  | cons first later =>
      cases later with
      | nil =>
          rw [Literal.step] at h
          dsimp only at h
          split at h
          · next hb =>
            obtain rfl := Except.ok.inj h
            exact ⟨by simp [hb], nofun⟩
          · cases h
      | cons second later =>
          rw [Literal.step] at h
          dsimp only at h
          split at h
          · next hb =>
            obtain rfl := Except.ok.inj h
            refine ⟨by simp [hb], ?_⟩
            rintro _ ⟨⟩ c hc
            exact List.mem_cons_of_mem first hc
          · cases h

/-- The lexer is in a string that is never closed. -/
def DoomedIn (l : Lexer) : Prop := ∃ token, l = .string token ∧ Doomed token

/-- With each byte the lexer and the comments come to the same side of a quotation mark, unless the
string that is being read is doomed. -/
lemma placeOf_of_step (hsound : Sound l) (h : l.step b = some (tokens, l'))
    (hslash : placeOf l = .code → b ≠ Byte.slash) :
    DoomedIn l' ∨ (placeOf l' = (placeOf l).next b ∧ Sound l') := by
  have hstays : b ≠ Byte.quotationMark → b ≠ Byte.slash → CommentState.next .code b = .code := by
    intro hquote hslash
    simp [CommentState.next, hquote, hslash]
  cases l with
  | between => exact .inr (placeOf_of_start h (hslash rfl))
  | string token =>
      rw [Lexer.step] at h
      split at h
      · next longer hstep =>
        obtain ⟨-, rfl⟩ := Prod.mk.inj (Option.some.inj h)
        by_cases hdoomed : Doomed longer
        · exact .inl ⟨longer, rfl, hdoomed⟩
        · exact .inr ⟨(placeIn_of_more hstep).resolve_left hdoomed, hdoomed⟩
      · next x hstep =>
        obtain ⟨-, rfl⟩ := Prod.mk.inj (Option.some.inj h)
        exact .inr ⟨(placeIn_of_done hstep).symm, trivial⟩
      · cases h
  | number token =>
      rw [Lexer.step] at h
      split at h
      · next longer hstep =>
        obtain ⟨-, rfl⟩ := Prod.mk.inj (Option.some.inj h)
        have hquote : b ≠ Byte.quotationMark := by
          rintro rfl
          exact token.step_ne_more (by decide) longer hstep
        exact .inr ⟨(hstays hquote (hslash rfl)).symm, trivial⟩
      · obtain ⟨⟨first, behind⟩, hstart, hl⟩ := Option.map_eq_some_iff.1 h
        obtain ⟨-, rfl⟩ := Prod.mk.inj hl
        exact .inr (placeOf_of_start hstart (hslash rfl))
      · cases h
  | literal token meaning =>
      rw [Lexer.step] at h
      split at h
      · next shorter hstep =>
        obtain ⟨-, rfl⟩ := Prod.mk.inj (Option.some.inj h)
        obtain ⟨hmem, hshorter⟩ := mem_of_literal_step hstep
        have hquote : b ≠ Byte.quotationMark := fun hb => hsound (hb ▸ hmem)
        exact .inr ⟨(hstays hquote (hslash rfl)).symm, fun hmem' => hsound (hshorter _ rfl _ hmem')⟩
      · next hstep =>
        obtain ⟨-, rfl⟩ := Prod.mk.inj (Option.some.inj h)
        obtain ⟨hmem, -⟩ := mem_of_literal_step hstep
        have hquote : b ≠ Byte.quotationMark := fun hb => hsound (hb ▸ hmem)
        exact .inr ⟨(hstays hquote (hslash rfl)).symm, trivial⟩
      · cases h

/-- A doomed string is not closed by any bytes. -/
lemma DoomedIn.behind? (hdoomed : DoomedIn l) (h : l.behind? bytes = some l') : DoomedIn l' := by
  induction bytes generalizing l with
  | nil =>
      obtain rfl := Option.some.inj h
      exact hdoomed
  | cons b bytes ih =>
      obtain ⟨token, rfl, htoken⟩ := hdoomed
      obtain ⟨⟨tokens, l₁⟩, hstep, hbehind⟩ := Option.bind_eq_some_iff.1 h
      refine ih ?_ hbehind
      rw [Lexer.step] at hstep
      split at hstep
      · next longer hlonger =>
        obtain ⟨-, rfl⟩ := Prod.mk.inj (Option.some.inj hstep)
        obtain ⟨t, ht, hdoomed⟩ := htoken.step hlonger
        obtain rfl := Progress.more.inj ht
        exact ⟨longer, rfl, hdoomed⟩
      · next x hx =>
        obtain ⟨t, ht, -⟩ := htoken.step hx
        cases ht
      · cases hstep

/-- Bytes that are all handed on are so one after another. -/
lemma CommentState.Leaves.tail {s t : CommentState} (h : Leaves s (b :: bytes) (b :: bytes) t) :
    s.shown b = .byte b ∧ Leaves (s.next b) bytes bytes t := by
  have hitems := h.items_eq
  rw [withoutCommentsFrom, List.map_cons] at hitems
  obtain ⟨hshown, htail⟩ := List.cons.inj hitems
  exact ⟨hshown, htail, h.behind_eq⟩

/-- **Side by side**: behind bytes that hold no comment, the lexer and the comments are on the same
side of a quotation mark, unless the string that is being read is doomed. -/
theorem placeOf_of_behind? {t : CommentState} (hsound : Sound l)
    (hleaves : CommentState.Leaves (placeOf l) bytes bytes t) (h : l.behind? bytes = some l') :
    DoomedIn l' ∨ placeOf l' = t := by
  induction bytes generalizing l with
  | nil =>
      obtain rfl := Option.some.inj h
      exact .inr hleaves.behind_eq
  | cons b bytes ih =>
      obtain ⟨⟨tokens, l₁⟩, hstep, hbehind⟩ := Option.bind_eq_some_iff.1 h
      obtain ⟨hshown, hlater⟩ := hleaves.tail
      have hslash : placeOf l = .code → b ≠ Byte.slash := by
        rintro hplace rfl
        rw [hplace] at hshown
        cases hshown
      rcases placeOf_of_step hsound hstep hslash with hdoomed | ⟨hplace, hsound₁⟩
      · exact .inl (hdoomed.behind? hbehind)
      · rw [← hplace] at hlater
        exact ih hsound₁ hlater hbehind

/-- Behind whole pieces the reader is outside strings, if it comes to the end of a value. -/
lemma lexer_ne_string {r r' : Reader} {v : Value} (hpieces : Pieces bytes left)
    (hrun : Reader.start.run left = .ok r) (hrest : r.run rest = .ok r')
    (hfinish : r'.finish = .ok v) : ∀ token, r.lexer ≠ .string token := by
  obtain ⟨hproper, hbehind⟩ := Reader.lexer_of_run Reader.proper_start hrun
  obtain ⟨hproper', hbehind'⟩ := Reader.lexer_of_run hproper hrest
  obtain ⟨tokens, hend, -⟩ := Reader.finish_tokens hproper' hfinish
  intro token htoken
  rcases placeOf_of_behind? (l := .between) trivial hpieces.pieces_left.leaves hbehind with
    hdoomed | hplace
  · -- the text would have to end inside the string
    obtain ⟨token', htoken', -⟩ := hdoomed.behind? hbehind'
    rw [htoken'] at hend
    cases hend
  · rw [htoken, placeOf, placeIn] at hplace
    split at hplace <;> cases hplace

end Alignment

end RuleScript.Script
