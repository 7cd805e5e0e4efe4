import Mathlib.Data.UInt
import RuleScript.Proofs.Json.Between
import RuleScript.Proofs.Json.IndentedReadBack

/-!
Numerals: which texts are read as an integer that is not negative.

* `numeral`, `IsNumeral`: the decimal digits of a number, and a text that is nothing else but for
  blanks around them;
* `numeral_of_lt`, `numeral_append`: the digits of a number, from the first one to the last;
* `NumberToken.Spells`: as long as a number has neither sign nor point nor exponent and fits 64 bits,
  what has been read of it is its numeral; `Spells.step` says so digit by digit;
* `Lexer.exists_number`: a text with a single token that is a number is that number with blanks
  around it;
* `parse?_eq_natural_iff`: the texts that are read as `n` are the numerals of `n`.
-/

namespace RuleScript.Json

/-! ### The digits of a number -/

/-- The decimal digits of a number. -/
def numeral (n : ℕ) : List UInt8 := bytesOf (toString n)

/-- The text is the decimal digits of a number, with blanks around them. -/
def IsNumeral (n : ℕ) (text : String) : Prop :=
  ∃ before after : List UInt8, (∀ b ∈ before ++ after, isBlank b) ∧
    bytesOf text = before ++ numeral n ++ after

variable {n d : ℕ} {b : UInt8}

/-- The byte of a digit. -/
def digitByte (d : ℕ) : UInt8 := .ofNat (48 + d)

/-- A digit is read back from its byte. -/
lemma digit?_digitByte (h : d < 10) : digit? (digitByte d) = some d := by
  have hall : ∀ d < 10, digit? (digitByte d) = some d := by decide
  exact hall d h

/-- A byte that is a digit is the byte of that digit. -/
lemma digit?_eq_some (h : digit? b = some d) : d < 10 ∧ b = digitByte d := by
  rw [digit?] at h
  split at h
  · next hb =>
    rw [Bool.and_eq_true, decide_eq_true_eq, decide_eq_true_eq, UInt8.le_iff_toNat_le,
      UInt8.le_iff_toNat_le] at hb
    have hzero : Byte.zero.toNat = 48 := rfl
    have hnine : Byte.nine.toNat = 57 := rfl
    have hd := Option.some.inj h
    refine ⟨by omega, ?_⟩
    rw [digitByte, show 48 + d = b.toNat by omega, UInt8.ofNat_toNat]
  · cases h

/-- A number below ten is its own digit. -/
lemma numeral_of_lt (h : d < 10) : numeral d = [digitByte d] := by
  have hchar := Nat.toNat_digitChar_of_lt_ten h
  rw [numeral, Nat.toString_eq_ofList_toDigits, bytesOf_ofList, Nat.toDigits_of_lt_base h,
    List.flatMap_singleton, utf8EncodeChar_of_lt (by omega), hchar, digitByte]

/-- The digits of a number, and one more. -/
lemma numeral_append (hn : 0 < n) (hd : d < 10) :
    numeral (10 * n + d) = numeral n ++ [digitByte d] := by
  rw [← numeral_of_lt hd]
  simp only [numeral, Nat.toString_eq_ofList_toDigits, bytesOf_ofList]
  rw [← Nat.toDigits_append_toDigits (by decide) hn hd, List.flatMap_append]

/-! ### Reading a number digit by digit -/

namespace NumberToken

variable {token : NumberToken} {phase phase' : Phase} {written : List UInt8}

/-- The token of a number whose digits have been read. -/
def natural (n : ℕ) : NumberToken := ⟨false, if n = 0 then .zero else .whole n⟩

/-- A number may end behind any of its digits, and is an integer then. -/
lemma ended_natural (n : ℕ) : (natural n).ended = .ok (.natural (.ofNat n)) := by
  rw [natural, ended]
  by_cases h : n = 0
  · subst h
    rfl
  · rw [if_neg h]
    rfl

lemma finish_natural (n : ℕ) : (natural n).finish = .ok (.natural (.ofNat n)) := by
  rw [← ended_natural, natural, finish]
  by_cases h : n = 0
  · rw [if_pos h]
  · rw [if_neg h]

/-- A digit begins its number. -/
lemma begin?_digitByte (h : d < 10) : begin? (digitByte d) = some (natural d) := by
  have hall : ∀ d < 10, begin? (digitByte d) = some (natural d) := by decide
  exact hall d h

/-- A number goes on with one more digit, as long as it fits 64 bits. -/
lemma step_natural (hn : 0 < n) (hd : d < 10) (h : 10 * n + d < UInt64.size) :
    (natural n).step (digitByte d) = .ok (.more (natural (10 * n + d))) := by
  have hpos : n ≠ 0 := Nat.ne_of_gt hn
  have hadvance : advance (natural n).phase (digitByte d) =
      .ok (some (natural (10 * n + d)).phase) := by
    simp [natural, hpos, advance, digit?_digitByte hd, appendDigit?, h]
  rw [step, hadvance]
  rfl

/-- The phases in which a number is an integer that fits 64 bits. -/
def Phase.IsShort : Phase → Prop
  | .start | .zero | .whole _ => True
  | _ => False

/-- What has been read of a number: its numeral, as long as it has no sign, no point and no exponent
and fits 64 bits. -/
inductive Spells : NumberToken → List UInt8 → Prop
  | short {n : ℕ} (lt : n < UInt64.size) : Spells (natural n) (numeral n)
  | negative {phase : Phase} {written : List UInt8} : Spells ⟨true, phase⟩ written
  | long {negative : Bool} {phase : Phase} {written : List UInt8} (long : ¬ phase.IsShort) :
    Spells ⟨negative, phase⟩ written

/-- The first byte of a number spells it. -/
lemma spells_begin (h : begin? b = some token) : token.Spells [b] := by
  cases hdigit : digit? b with
  | none =>
      rw [begin?, hdigit] at h
      split at h
      · obtain rfl := Option.some.inj h
        exact .negative
      · cases h
  | some d =>
      obtain ⟨hd, rfl⟩ := digit?_eq_some hdigit
      rw [begin?_digitByte hd] at h
      obtain rfl := Option.some.inj h
      rw [← numeral_of_lt hd]
      exact .short (Nat.lt_trans hd (by decide))

/-- The first digit of an exponent, and each further one, belong to an exponent. -/
lemma not_isShort_of_firstPowerDigit {s : ℕ} {e : Int} {down : Bool}
    (h : (firstPowerDigit s e down b).map some = .ok (some phase')) : ¬ phase'.IsShort := by
  rw [firstPowerDigit] at h
  split at h
  · obtain rfl := Option.some.inj (Except.ok.inj h)
    exact id
  · cases h

lemma not_isShort_of_nextPowerDigit {s written d : ℕ} {e : Int} {down : Bool}
    (h : (nextPowerDigit s e down written d).map some = .ok (some phase')) :
    ¬ phase'.IsShort := by
  rw [nextPowerDigit] at h
  split at h
  · obtain rfl := Option.some.inj (Except.ok.inj h)
    exact id
  · split at h
    · cases h
    · obtain rfl := Option.some.inj (Except.ok.inj h)
      exact id

/-- A number that is too long, or no integer, stays so. -/
lemma not_isShort_of_advance (hlong : ¬ phase.IsShort)
    (h : advance phase b = .ok (some phase')) : ¬ phase'.IsShort := by
  cases phase with
  | start => exact absurd trivial hlong
  | zero => exact absurd trivial hlong
  | whole s => exact absurd trivial hlong
  | _ =>
      unfold advance at h
      grind [Phase.IsShort, not_isShort_of_firstPowerDigit, not_isShort_of_nextPowerDigit]

/-- Behind a zero and behind digits an integer goes on with a digit, or it does not go on as one. -/
lemma advance_natural (h : advance (natural n).phase b = .ok (some phase')) :
    ¬ phase'.IsShort ∨ ∃ d, 0 < n ∧ d < 10 ∧ b = digitByte d ∧ 10 * n + d < UInt64.size ∧
      phase' = (natural (10 * n + d)).phase := by
  by_cases hn : n = 0
  · have hphase : (natural n).phase = .zero := if_pos hn
    left
    rw [hphase, advance] at h
    grind [Phase.IsShort]
  · have hphase : (natural n).phase = .whole n := if_neg hn
    rw [hphase, advance] at h
    cases hdigit : digit? b with
    | none =>
        left
        rw [hdigit] at h
        grind [Phase.IsShort]
    | some d =>
        obtain ⟨hd, hb⟩ := digit?_eq_some hdigit
        simp only [hdigit, appendDigit?] at h
        by_cases hlt : 10 * n + d < UInt64.size
        · rw [if_pos hlt] at h
          refine .inr ⟨d, Nat.pos_of_ne_zero hn, hd, hb, hlt, ?_⟩
          rw [← Option.some.inj (Except.ok.inj h)]
          exact (if_neg (by omega)).symm
        · rw [if_neg hlt] at h
          rw [← Option.some.inj (Except.ok.inj h)]
          exact .inl id

/-- Each further byte goes on spelling the number. -/
lemma Spells.step {next : NumberToken} (hspells : token.Spells written)
    (h : token.step b = .ok (.more next)) : next.Spells (written ++ [b]) := by
  obtain ⟨phase?, hadvance, h⟩ := bind_eq_ok_iff.1 h
  cases phase? with
  | none =>
      obtain ⟨m, -, h⟩ := bind_eq_ok_iff.1 h
      cases h
  | some phase =>
      obtain rfl := Progress.more.inj (Except.ok.inj h)
      cases hspells with
      | negative => exact .negative
      | long hlong => exact .long (not_isShort_of_advance hlong hadvance)
      | @short n lt =>
          rcases advance_natural hadvance with hlong | ⟨d, hn, hd, rfl, hlt, rfl⟩
          · exact .long hlong
          · rw [← numeral_append hn hd]
            exact .short hlt

/-- A double is no integer. -/
lemma float_ne_natural (negative : Bool) (s : ℕ) (e : Int) (n : UInt64) :
    float negative s e ≠ .ok (.natural n) := by
  intro h
  rw [float] at h
  split at h <;> cases h

/-- A number that ends as an integer that is not negative has no sign, and is one that fits 64 bits. -/
lemma isShort_of_ended {n : UInt64} (h : token.ended = .ok (.natural n)) :
    token.negative = false ∧ token.phase.IsShort := by
  obtain ⟨negative, phase⟩ := token
  have hinteger : ∀ s, integer negative s = .natural n → negative = false := by
    intro s hs
    by_contra hnegative
    rw [integer, if_neg hnegative] at hs
    split at hs <;> cases hs
  cases phase with
  | zero => exact ⟨hinteger _ (Except.ok.inj h), trivial⟩
  | whole s => exact ⟨hinteger _ (Except.ok.inj h), trivial⟩
  | _ => first | cases h | exact absurd h (float_ne_natural _ _ _ _)

/-- A number that ends as an integer that is not negative has been spelled by its numeral. -/
lemma Spells.eq_numeral {n : UInt64} (hspells : token.Spells written)
    (h : token.ended = .ok (.natural n)) : written = numeral n.toNat := by
  obtain ⟨hnegative, hshort⟩ := isShort_of_ended h
  cases hspells with
  | @short k lt =>
      rw [ended_natural] at h
      have hk := Number.natural.inj (Except.ok.inj h)
      rw [← hk, UInt64.toNat_ofNat_of_lt' lt]
  | negative => cases hnegative
  | long hlong => exact absurd hshort hlong

end NumberToken

/-! ### Texts with a single token -/

namespace Lexer

open NumberToken (begin? Spells)

variable {l : Lexer} {token : NumberToken} {m : Number} {bytes written : List UInt8}
variable {tokens : List Token}

/-- The token that comes next is the one that is being read. -/
inductive Brings : Lexer → Token → Prop
  | string {token : StringToken} {s : String} : Brings (string token) (.scalar (.string s))
  | number {token : NumberToken} {m : Number} : Brings (number token) (.scalar (.number m))
  | literal {token : Literal} {meaning : Value} :
    Brings (literal token meaning) (.scalar meaning)

/-- The tokens of some bytes are those that the first one completes, and those of the others. -/
lemma tokens?_cons_eq_some (h : l.tokens? (b :: bytes) = some tokens) :
    ∃ first l' later, l.step b = some (first, l') ∧ l'.tokens? bytes = some later ∧
      tokens = first ++ later := by
  obtain ⟨⟨first, l'⟩, hstep, h⟩ := Option.bind_eq_some_iff.1 h
  obtain ⟨later, hlater, h⟩ := Option.bind_eq_some_iff.1 h
  exact ⟨first, l', later, hstep, hlater, (Option.some.inj h).symm⟩

/-- A byte inside a token leaves it unfinished or completes it. -/
lemma step_inside {l' : Lexer} (hl : l ≠ between) (h : l.step b = some (tokens, l')) :
    (tokens = [] ∧ l' ≠ between ∧ ∀ t, l'.Brings t → l.Brings t) ∨
      ∃ first later, tokens = first :: later ∧ l.Brings first := by
  cases l with
  | between => exact absurd rfl hl
  | string token =>
      rw [step] at h
      split at h
      · cases h
        refine .inl ⟨rfl, by simp, ?_⟩
        rintro t ⟨⟩
        exact .string
      · cases h
        exact .inr ⟨_, [], rfl, .string⟩
      · cases h
  | number token =>
      rw [step] at h
      split at h
      · cases h
        refine .inl ⟨rfl, by simp, ?_⟩
        rintro t ⟨⟩
        exact .number
      · obtain ⟨⟨later, l''⟩, -, h⟩ := Option.map_eq_some_iff.1 h
        cases h
        exact .inr ⟨_, later, rfl, .number⟩
      · cases h
  | literal token meaning =>
      rw [step] at h
      split at h
      · cases h
        refine .inl ⟨rfl, by simp, ?_⟩
        rintro t ⟨⟩
        exact .literal
      · cases h
        exact .inr ⟨_, [], rfl, .literal⟩
      · cases h

/-- A token that has been begun is completed before any other one. -/
lemma exists_first (hl : l ≠ between) (h : l.tokens? bytes = some tokens) :
    ∃ first later, tokens = first :: later ∧ l.Brings first := by
  induction bytes generalizing l tokens with
  | nil =>
      cases l with
      | between => exact absurd rfl hl
      | number token =>
          rw [tokens?, finish] at h
          split at h
          · cases h
            exact ⟨_, [], rfl, .number⟩
          · cases h
      | _ => cases h
  | cons b bytes ih =>
      obtain ⟨first, l', later, hstep, hlater, rfl⟩ := tokens?_cons_eq_some h
      rcases step_inside hl hstep with ⟨rfl, hl', hbrings⟩ | ⟨t, others, rfl, ht⟩
      · obtain ⟨t, others, rfl, ht⟩ := ih hl' hlater
        exact ⟨t, others, rfl, hbrings t ht⟩
      · exact ⟨t, others ++ later, rfl, ht⟩

/-- A byte between two tokens is a blank or a mark, or it begins a token. -/
lemma start_cases (h : start b = some (tokens, l)) :
    (isBlank b ∧ tokens = [] ∧ l = between) ∨ tokens = [.mark b] ∨
      (tokens = [] ∧ l ≠ between ∧
        ∀ m, l.Brings (.scalar (.number m)) → ∃ token, begin? b = some token ∧ l = number token) := by
  rw [start] at h
  split at h
  · next hb =>
    cases h
    exact .inl ⟨hb, rfl, rfl⟩
  split at h
  · cases h
    exact .inr (.inl rfl)
  refine .inr (.inr ?_)
  split at h
  · cases h
    exact ⟨rfl, by simp, by rintro m ⟨⟩⟩
  split at h
  · cases h
    exact ⟨rfl, by simp, by rintro m ⟨⟩⟩
  split at h
  · cases h
    exact ⟨rfl, by simp, by rintro m ⟨⟩⟩
  split at h
  · cases h
    exact ⟨rfl, by simp, by rintro m ⟨⟩⟩
  · obtain ⟨token, htoken, h⟩ := Option.map_eq_some_iff.1 h
    cases h
    exact ⟨rfl, by simp, fun m _ => ⟨token, htoken, rfl⟩⟩

/-- A text without tokens is blank. -/
lemma isBlank_of_tokens?_nil (h : between.tokens? bytes = some []) : ∀ b ∈ bytes, isBlank b := by
  induction bytes with
  | nil => simp
  | cons b bytes ih =>
      obtain ⟨first, l, later, hstep, hlater, htokens⟩ := tokens?_cons_eq_some h
      obtain ⟨rfl, rfl⟩ := List.append_eq_nil_iff.1 htokens.symm
      rcases start_cases hstep with ⟨hb, -, rfl⟩ | hmark | ⟨-, hl, -⟩
      · exact List.forall_mem_cons.2 ⟨hb, ih hlater⟩
      · cases hmark
      · obtain ⟨t, others, hcons, -⟩ := exists_first hl hlater
        cases hcons

/-- A number with no other token behind it is followed by blanks. -/
lemma exists_rest (hspells : token.Spells written)
    (h : (number token).tokens? bytes = some [.scalar (.number m)]) :
    ∃ more after last, (∀ b ∈ after, isBlank b) ∧ bytes = more ++ after ∧
      Spells last (written ++ more) ∧ last.ended = .ok m := by
  induction bytes generalizing token written with
  | nil =>
      rw [tokens?, finish] at h
      split at h
      · next n hfinish =>
        cases h
        refine ⟨[], [], token, by simp, rfl, ?_, NumberToken.ended_of_finish hfinish⟩
        rw [List.append_nil]
        exact hspells
      · cases h
  | cons b bytes ih =>
      obtain ⟨first, l, later, hstep, hlater, htokens⟩ := tokens?_cons_eq_some h
      rw [step] at hstep
      split at hstep
      · next next hnext =>
        cases hstep
        obtain ⟨more, after, last, hblanks, rfl, hlast, hended⟩ :=
          ih (hspells.step hnext) (by rw [hlater, htokens]; rfl)
        refine ⟨b :: more, after, last, hblanks, rfl, ?_, hended⟩
        rw [List.append_cons]
        exact hlast
      · next n hdone =>
        -- the byte behind the number is read again, now between two tokens
        obtain ⟨⟨others, l'⟩, hstart, hfirst⟩ := Option.map_eq_some_iff.1 hstep
        cases hfirst
        obtain ⟨hn, hrest⟩ := List.cons.inj htokens
        obtain ⟨rfl, rfl⟩ := List.append_eq_nil_iff.1 hrest.symm
        cases hn
        have hblanks : between.tokens? (b :: bytes) = some [] := by
          simp [tokens?, step, hstart, hlater]
        refine ⟨[], b :: bytes, token, isBlank_of_tokens?_nil hblanks, rfl, ?_,
          NumberToken.ended_of_step hdone⟩
        rw [List.append_nil]
        exact hspells
      · cases hstep

/-- A text with no token but a number is this number with blanks around it. -/
lemma exists_number (h : between.tokens? bytes = some [.scalar (.number m)]) :
    ∃ before written after token, (∀ b ∈ before ++ after, isBlank b) ∧
      bytes = before ++ written ++ after ∧ Spells token written ∧ token.ended = .ok m := by
  induction bytes with
  | nil => cases h
  | cons b bytes ih =>
      obtain ⟨first, l, later, hstep, hlater, htokens⟩ := tokens?_cons_eq_some h
      rcases start_cases hstep with ⟨hb, rfl, rfl⟩ | rfl | ⟨rfl, hl, hbegin⟩
      · obtain ⟨before, written, after, token, hblanks, rfl, hspells, hended⟩ :=
          ih (htokens ▸ hlater)
        exact ⟨b :: before, written, after, token, List.forall_mem_cons.2 ⟨hb, hblanks⟩, rfl,
          hspells, hended⟩
      · cases htokens
      · obtain ⟨t, others, rfl, ht⟩ := exists_first hl hlater
        obtain ⟨rfl, rfl⟩ := List.cons.inj htokens
        obtain ⟨token, htoken, rfl⟩ := hbegin m ht
        obtain ⟨more, after, last, hblanks, rfl, hspells, hended⟩ :=
          exists_rest (NumberToken.spells_begin htoken) hlater
        exact ⟨[], b :: more, after, last, hblanks, rfl, hspells, hended⟩

end Lexer

/-! ### Whole texts -/

namespace Reader

variable {r : Reader} {outer : List Frame}

/-- Where a value is waited for, a digit begins a number. -/
lemma step_digitByte (hr : Awaits r outer) (h : d < 10) :
    r.step (digitByte d) = .ok ⟨.number (.natural d), outer⟩ := by
  have hother : ∀ d < 10, isBlank (digitByte d) = false ∧ digitByte d ≠ Byte.closeBracket ∧
      digitByte d ≠ Byte.quotationMark ∧ digitByte d ≠ Byte.openBracket ∧
      digitByte d ≠ Byte.openBrace ∧ digitByte d ≠ Byte.lowerN ∧ digitByte d ≠ Byte.lowerT ∧
      digitByte d ≠ Byte.lowerF := by decide
  obtain ⟨hblank, hclose, hquote, hbracket, hbrace, hnull, htrue, hfalse⟩ := hother d h
  rw [hr.step_eq hblank hclose]
  simp [startValue, hquote, hbracket, hbrace, hnull, htrue, hfalse,
    NumberToken.begin?_digitByte h]

/-- Where a value is waited for, the digits of a number that fits 64 bits are read as its token. -/
lemma run_numeral (hr : Awaits r outer) (h : n < UInt64.size) :
    r.run (numeral n) = .ok ⟨.number (.natural n), outer⟩ := by
  induction n using Nat.strong_induction_on with
  | _ n ih =>
      by_cases hn : n < 10
      · rw [numeral_of_lt hn]
        exact run_cons_of_ok (step_digitByte hr hn) []
      · have hdiv : 10 * (n / 10) + n % 10 = n := Nat.div_add_mod n 10
        have hpos : 0 < n / 10 := by omega
        have hmod : n % 10 < 10 := Nat.mod_lt n (by decide)
        have hfirst := ih (n / 10) (by omega) (by omega)
        have hlast : step ⟨.number (.natural (n / 10)), outer⟩ (digitByte (n % 10)) =
            .ok ⟨.number (.natural n), outer⟩ := by
          have htoken := NumberToken.step_natural hpos hmod (by rw [hdiv]; exact h)
          rw [hdiv] at htoken
          simp [step, htoken, bind, Except.bind, pure, Except.pure]
        rw [← hdiv, numeral_append hpos hmod, run_append_of_ok hfirst, hdiv]
        exact run_cons_of_ok hlast []

end Reader

lemma natural_merged (n : UInt64) : (Value.natural n).merged = .natural n := by
  simp [Value.natural, Value.merged]

/-- A numeral is read as its number. -/
lemma parse?_of_isNumeral {text : String} (h : IsNumeral n text) (hn : n < UInt64.size) :
    parse? text = some (.natural (.ofNat n)) := by
  obtain ⟨before, after, hblanks, hbytes⟩ := h
  have hbefore : Reader.start.run before = .ok .start :=
    Reader.run_blanks (Reader.Awaits.value.skipsBlanks) fun b hb => hblanks b (by simp [hb])
  have hnumeral : Reader.start.run (before ++ numeral n) = .ok ⟨.number (.natural n), []⟩ :=
    (Reader.run_append_of_ok hbefore _).trans (Reader.run_numeral .value hn)
  rw [parse?_eq_some_iff, hbytes]
  cases after with
  | nil =>
      have hfinish : Reader.finish ⟨.number (.natural n), []⟩ = .ok (.natural (.ofNat n)) :=
        bind_eq_ok_iff.2 ⟨_, NumberToken.finish_natural n, rfl⟩
      rw [List.append_nil]
      exact ⟨_, .natural (.ofNat n), hnumeral, hfinish, natural_merged _⟩
  | cons b after =>
      have hblank : Reader.run ⟨.number (.natural n), []⟩ (b :: after) =
          .ok (Reader.deliver (.natural (.ofNat n)) []) :=
        Reader.run_number_blanks [] (NumberToken.ended_natural n) (hblanks b (by simp))
          fun c hc => hblanks c (by simp [hc])
      exact ⟨_, .natural (.ofNat n), (Reader.run_append_of_ok hnumeral _).trans hblank, rfl,
        natural_merged _⟩

/-- **Numerals and nothing else are read as integers that are not negative**: the text is the decimal
digits of the number, without a sign, a point or an exponent, with blanks around them at most. -/
theorem parse?_eq_natural_iff {n : UInt64} {text : String} :
    parse? text = some (.natural n) ↔ IsNumeral n.toNat text := by
  constructor
  · intro h
    obtain ⟨r, w, hrun, hfinish, hmerged⟩ := parse?_eq_some_iff.1 h
    obtain rfl : w = .natural n := by
      cases w with
      | array items => simp [Value.merged, Value.natural] at hmerged
      | object members => simp [Value.merged, Value.natural] at hmerged
      | _ => simpa only [Value.merged] using hmerged
    have htokens : tokens? (bytesOf text) = some [.scalar (.number (.natural n))] :=
      tokens?_of_read hrun hfinish
    obtain ⟨before, written, after, token, hblanks, hbytes, hspells, hended⟩ :=
      Lexer.exists_number htokens
    rw [hspells.eq_numeral hended] at hbytes
    exact ⟨before, after, hblanks, hbytes⟩
  · intro h
    rw [parse?_of_isNumeral h n.toNat_lt_size, UInt64.ofNat_toNat]

end RuleScript.Json
