import RuleScript.Proofs.Json.Run

/-!
What a byte does to the reader: one constructor for each way in which it is taken.

* `Reader.Begins`: the ways in which a value begins;
* `Reader.Takes`: the ways in which a byte is taken, the beginning of a value among them;
* `Reader.takes_of_step`: there are no other ways.
-/

namespace RuleScript.Json

/-- What begins a number begins nothing else. -/
lemma NumberToken.ne_of_begin? {b c : UInt8} {token : NumberToken} (hb : begin? b = some token)
    (hc : begin? c = none) : b ≠ c := by
  rintro rfl
  rw [hc] at hb
  cases hb

namespace Reader

variable {r r' : Reader} {outer : List Frame} {b : UInt8}

/-! ### The ways in which a byte is taken -/

/-- No string, no number and no word is being read. -/
def Between (r : Reader) : Prop :=
  match r.mode with
  | .key .. | .literal .. | .number _ | .string _ => False
  | _ => True

lemma between_deliver (v : Value) (outer : List Frame) : (deliver v outer).Between := by
  cases outer with
  | nil => trivial
  | cons frame outer => cases frame <;> trivial

/-- The byte begins a value inside the given containers. -/
inductive Begins (outer : List Frame) : UInt8 → Reader → Prop
  | string : Begins outer Byte.quotationMark ⟨.string .opened, outer⟩
  | array : Begins outer Byte.openBracket ⟨.firstItem, outer⟩
  | object : Begins outer Byte.openBrace ⟨.firstKey, outer⟩
  | null : Begins outer Byte.lowerN ⟨.literal .nullRest .null, outer⟩
  | true : Begins outer Byte.lowerT ⟨.literal .trueRest (.bool true), outer⟩
  | false : Begins outer Byte.lowerF ⟨.literal .falseRest (.bool false), outer⟩
  | number {b : UInt8} {token : NumberToken} (begin : NumberToken.begin? b = some token) :
    Begins outer b ⟨.number token, outer⟩

/-- Where the byte is taken, one reader becomes the other. -/
inductive Takes : Reader → UInt8 → Reader → Prop
  | blank {r : Reader} {b : UInt8} (between : r.Between) (blank : isBlank b = true) :
    Takes r b r
  | begin {r r' : Reader} {outer : List Frame} {b : UInt8} (awaits : Awaits r outer)
      (notBlank : isBlank b = false) (begins : Begins outer b r') : Takes r b r'
  | noItems {outer : List Frame} :
    Takes ⟨.firstItem, outer⟩ Byte.closeBracket (deliver (.array []) outer)
  | nextItem {before : List Value} {outer : List Frame} :
    Takes ⟨.afterItem before, outer⟩ Byte.comma ⟨.nextItem before, outer⟩
  | endItems {before : List Value} {outer : List Frame} :
    Takes ⟨.afterItem before, outer⟩ Byte.closeBracket (deliver (.array before.reverse) outer)
  | noMembers {outer : List Frame} :
    Takes ⟨.firstKey, outer⟩ Byte.closeBrace (deliver (.object []) outer)
  | beginFirstKey {outer : List Frame} :
    Takes ⟨.firstKey, outer⟩ Byte.quotationMark ⟨.key [] .opened, outer⟩
  | beginKey {before : List (String × Value)} {outer : List Frame} :
    Takes ⟨.nextKey before, outer⟩ Byte.quotationMark ⟨.key before .opened, outer⟩
  | key {before : List (String × Value)} {outer : List Frame} {token longer : StringToken}
      {b : UInt8} (step : token.step b = .ok (.more longer)) :
    Takes ⟨.key before token, outer⟩ b ⟨.key before longer, outer⟩
  | endKey {before : List (String × Value)} {outer : List Frame} {token : StringToken} {b : UInt8}
      {key : String} (step : token.step b = .ok (.done key)) :
    Takes ⟨.key before token, outer⟩ b ⟨.colon before key, outer⟩
  | colon {before : List (String × Value)} {key : String} {outer : List Frame} :
    Takes ⟨.colon before key, outer⟩ Byte.colon ⟨.value, .object before key :: outer⟩
  | nextMember {before : List (String × Value)} {outer : List Frame} :
    Takes ⟨.afterMember before, outer⟩ Byte.comma ⟨.nextKey before, outer⟩
  | endMembers {before : List (String × Value)} {outer : List Frame} :
    Takes ⟨.afterMember before, outer⟩ Byte.closeBrace (deliver (.object before.reverse) outer)
  | literal {token longer : Literal} {meaning : Value} {outer : List Frame} {b : UInt8}
      (step : token.step b = .ok (.more longer)) :
    Takes ⟨.literal token meaning, outer⟩ b ⟨.literal longer meaning, outer⟩
  | endLiteral {token : Literal} {meaning : Value} {outer : List Frame} {b : UInt8}
      (step : token.step b = .ok (.done ())) :
    Takes ⟨.literal token meaning, outer⟩ b (deliver meaning outer)
  | string {token longer : StringToken} {outer : List Frame} {b : UInt8}
      (step : token.step b = .ok (.more longer)) :
    Takes ⟨.string token, outer⟩ b ⟨.string longer, outer⟩
  | endString {token : StringToken} {outer : List Frame} {b : UInt8} {s : String}
      (step : token.step b = .ok (.done s)) :
    Takes ⟨.string token, outer⟩ b (deliver (.string s) outer)
  | number {token longer : NumberToken} {outer : List Frame} {b : UInt8}
      (step : token.step b = .ok (.more longer)) :
    Takes ⟨.number token, outer⟩ b ⟨.number longer, outer⟩
  /-- The byte behind a number is taken behind the value. -/
  | behindNumber {token : NumberToken} {outer : List Frame} {b : UInt8} {n : Number} {r' : Reader}
      (step : token.step b = .ok (.done n)) (rest : Takes (deliver (.number n) outer) b r') :
    Takes ⟨.number token, outer⟩ b r'

/-- A value begins in one of these ways. -/
lemma begins_of_startValue (h : startValue outer b = .ok r') : Begins outer b r' := by
  unfold startValue openContainer at h
  split at h
  · next hb =>
    subst hb
    cases h
    exact .string
  split at h
  · next hb =>
    subst hb
    split at h
    · cases h
      exact .array
    · cases h
  split at h
  · next hb =>
    subst hb
    split at h
    · cases h
      exact .object
    · cases h
  split at h
  · next hb =>
    subst hb
    cases h
    exact .null
  split at h
  · next hb =>
    subst hb
    cases h
    exact .true
  split at h
  · next hb =>
    subst hb
    cases h
    exact .false
  split at h
  · next token htoken =>
    cases h
    exact .number htoken
  · cases h

/-- It begins inside the containers in which it was waited for. -/
lemma Begins.outer_eq (h : Begins outer b r') : r'.outer = outer := by
  cases h <;> rfl

/-- No value begins with a closing bracket. -/
lemma Begins.ne_closeBracket (h : Begins outer b r') : b ≠ Byte.closeBracket := by
  cases h with
  | number begin => exact NumberToken.ne_of_begin? begin rfl
  | _ => decide

/-- A byte outside strings, numbers and words is taken in one of these ways. -/
lemma takes_of_between (hr : r.Between) (h : r.stepOutsideNumber b = .ok r') :
    r.Takes b r' := by
  obtain ⟨mode, outer⟩ := r
  by_cases hblank : isBlank b = true
  · have hself : stepOutsideNumber ⟨mode, outer⟩ b = .ok ⟨mode, outer⟩ := by
      cases mode <;> simp_all [stepOutsideNumber, Between]
    obtain rfl := Except.ok.inj (hself.symm.trans h)
    exact .blank hr hblank
  rw [Bool.not_eq_true] at hblank
  cases mode with
  | value =>
      simp only [stepOutsideNumber, hblank, if_false, Bool.false_eq_true] at h
      exact .begin .value hblank (begins_of_startValue h)
  | firstItem =>
      simp only [stepOutsideNumber, hblank, if_false, Bool.false_eq_true] at h
      split at h
      · next hb =>
        subst hb
        cases h
        exact .noItems
      · exact .begin .firstItem hblank (begins_of_startValue h)
  | nextItem before =>
      simp only [stepOutsideNumber, hblank, if_false, Bool.false_eq_true] at h
      split at h
      · cases h
      · exact .begin .nextItem hblank (begins_of_startValue h)
  | afterItem before =>
      simp only [stepOutsideNumber, hblank, if_false, Bool.false_eq_true] at h
      split at h
      · next hb =>
        subst hb
        cases h
        exact .nextItem
      · split at h
        · next hb =>
          subst hb
          cases h
          exact .endItems
        · cases h
  | firstKey =>
      simp only [stepOutsideNumber, hblank, if_false, Bool.false_eq_true] at h
      split at h
      · next hb =>
        subst hb
        cases h
        exact .noMembers
      · split at h
        · next hb =>
          subst hb
          cases h
          exact .beginFirstKey
        · cases h
  | nextKey before =>
      simp only [stepOutsideNumber, hblank, if_false, Bool.false_eq_true] at h
      split at h
      · cases h
      · split at h
        · next hb =>
          subst hb
          cases h
          exact .beginKey
        · cases h
  | colon before key =>
      simp only [stepOutsideNumber, hblank, if_false, Bool.false_eq_true] at h
      split at h
      · next hb =>
        subst hb
        cases h
        exact .colon
      · cases h
  | afterMember before =>
      simp only [stepOutsideNumber, hblank, if_false, Bool.false_eq_true] at h
      split at h
      · next hb =>
        subst hb
        cases h
        exact .nextMember
      · split at h
        · next hb =>
          subst hb
          cases h
          exact .endMembers
        · cases h
  | complete v =>
      simp only [stepOutsideNumber, hblank, if_false, Bool.false_eq_true] at h
      cases h
  | _ => cases hr

/-- **There are no other ways** in which a byte is taken. -/
theorem takes_of_step (h : r.step b = .ok r') : r.Takes b r' := by
  obtain ⟨mode, outer⟩ := r
  cases mode with
  | key before token =>
      obtain ⟨progress, hprogress, h⟩ := bind_eq_ok_iff.1 h
      cases progress with
      | more longer =>
          cases h
          exact .key hprogress
      | done key =>
          cases h
          exact .endKey hprogress
  | literal token meaning =>
      obtain ⟨progress, hprogress, h⟩ := bind_eq_ok_iff.1 h
      cases progress with
      | more longer =>
          cases h
          exact .literal hprogress
      | done _ =>
          cases h
          exact .endLiteral hprogress
  | string token =>
      obtain ⟨progress, hprogress, h⟩ := bind_eq_ok_iff.1 h
      cases progress with
      | more longer =>
          cases h
          exact .string hprogress
      | done s =>
          cases h
          exact .endString hprogress
  | number token =>
      obtain ⟨progress, hprogress, h⟩ := bind_eq_ok_iff.1 h
      cases progress with
      | more longer =>
          cases h
          exact .number hprogress
      | done n => exact .behindNumber hprogress (takes_of_between (between_deliver _ _) h)
  | _ => exact takes_of_between trivial h

end Reader

end RuleScript.Json
