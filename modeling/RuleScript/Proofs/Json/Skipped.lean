import RuleScript.Json.Skipper
import RuleScript.Proofs.Json.Numerals

/-!
The skipper goes where the reader goes.

* `Reader.inside`: the reader of a single value, put inside some containers;
* `Reader.skipping`: the skipper of the same value at the same place;
* `Reader.skipping_step`: wherever the reader takes a byte inside the containers, the skipper takes
  it too, or the value has ended before it and the byte is taken behind the value.
-/

namespace RuleScript.Json

/-! ### Strings and numbers -/

/-- What is expected next in a string, the halves of a pair of units not told apart from others. -/
def StringToken.Phase.skipping : StringToken.Phase → Skipper.StringPhase
  | .plain | .pairBackslash _ => .plain
  | .letter | .pairLetter _ => .letter
  | .unit digits | .pairUnit _ digits => .unit digits

/-- What has been read of a number, without what it comes to. -/
def NumberToken.Phase.skipping : NumberToken.Phase → Skipper.NumberPhase
  | .start => .minus
  | .zero => .zero
  | .whole _ | .longWhole .. => .whole
  | .point .. => .point
  | .fraction .. | .longFraction .. => .fraction
  | .mark .. => .mark
  | .signed .. => .signed
  | .power .. | .vanished => .power

namespace StringToken

variable {token longer : StringToken} {b : UInt8} {s : String}

/-- A string that goes on is passed over. -/
lemma skipping_step_of_more (h : token.step b = .ok (.more longer)) :
    token.phase.skipping.step b = .ok (some longer.phase.skipping) := by
  obtain ⟨collected, phase⟩ := token
  cases phase <;>
    grind [step, takeUnit, takeLowUnit, Phase.skipping, Skipper.StringPhase.step, expect, push,
      pushCodePoint, map_eq_ok_iff]

/-- A string that ends is passed over to its end. -/
lemma skipping_step_of_done (h : token.step b = .ok (.done s)) :
    token.phase.skipping.step b = .ok none := by
  obtain ⟨collected, phase⟩ := token
  cases phase <;> grind [step, Phase.skipping, Skipper.StringPhase.step, map_eq_ok_iff]

end StringToken

namespace NumberToken

variable {token longer : NumberToken} {phase : Phase} {next : Option Phase} {n : Number} {b : UInt8}

lemma digit?_eq_zero_iff : digit? b = some 0 ↔ b = Byte.zero := by
  constructor
  · intro h
    exact (digit?_eq_some h).2
  · rintro rfl
    rfl

/-- A byte that a number takes, or ends before, is taken, or ended before, in passing over it. -/
lemma skipping_advance (h : advance phase b = .ok next) :
    phase.skipping.step b = .ok (next.map Phase.skipping) := by
  have hzero := digit?_eq_zero_iff (b := b)
  cases phase <;>
    grind [advance, Phase.skipping, Skipper.NumberPhase.step, firstPowerDigit,
      nextPowerDigit, map_eq_ok_iff]

/-- A number that goes on is passed over. -/
lemma skipping_step_of_more (h : token.step b = .ok (.more longer)) :
    token.phase.skipping.step b = .ok (some longer.phase.skipping) := by
  obtain ⟨next, hnext, h⟩ := bind_eq_ok_iff.1 h
  cases next with
  | some phase =>
      cases h
      exact skipping_advance hnext
  | none =>
      obtain ⟨_, -, h⟩ := bind_eq_ok_iff.1 h
      cases h

/-- A number that ends is passed over to its end. -/
lemma skipping_step_of_done (h : token.step b = .ok (.done n)) :
    token.phase.skipping.step b = .ok none := by
  obtain ⟨next, hnext, h⟩ := bind_eq_ok_iff.1 h
  cases next with
  | some phase => cases h
  | none => exact skipping_advance hnext

/-- What begins a number begins one that is passed over. -/
lemma skipping_begin? (h : begin? b = some token) :
    Skipper.NumberPhase.begin? b = some token.phase.skipping := by
  have hzero := digit?_eq_zero_iff (b := b)
  grind [begin?, Phase.skipping, Skipper.NumberPhase.begin?]

end NumberToken

namespace Reader

variable {r r' : Reader} {base outer : List Frame} {v : Value} {b : UInt8}

/-! ### The two side by side -/

/-- The reader of a single value, put inside the given containers. -/
def inside (r : Reader) (base : List Frame) : Reader :=
  match r.mode with
  | .complete v => deliver v base
  | mode => ⟨mode, r.outer ++ base⟩

/-- The skipper of a single value at the place of the reader. -/
def skipping (r : Reader) : Skipper :=
  let containers := r.outer.map Frame.container
  match r.mode with
  | .value => ⟨.value, containers⟩
  | .firstItem => ⟨.first, .array :: containers⟩
  | .nextItem _ => ⟨.value, .array :: containers⟩
  | .afterItem _ => ⟨.after, .array :: containers⟩
  | .firstKey => ⟨.first, .object :: containers⟩
  | .nextKey _ => ⟨.key, .object :: containers⟩
  | .key _ token => ⟨.insideKey token.phase.skipping, .object :: containers⟩
  | .colon .. => ⟨.colon, .object :: containers⟩
  | .afterMember _ => ⟨.after, .object :: containers⟩
  | .literal token _ => ⟨.literal token, containers⟩
  | .number token => ⟨.number token.phase.skipping, containers⟩
  | .string token => ⟨.string token.phase.skipping, containers⟩
  | .complete _ => ⟨.after, []⟩

lemma inside_deliver (v : Value) (outer base : List Frame) :
    (deliver v outer).inside base = deliver v (outer ++ base) := by
  cases outer with
  | nil => rfl
  | cons frame outer => cases frame <;> rfl

lemma skipping_deliver (v : Value) (outer : List Frame) :
    (deliver v outer).skipping = ⟨.after, outer.map Frame.container⟩ := by
  cases outer with
  | nil => rfl
  | cons frame outer => cases frame <;> rfl

/-- What the skipper does with a byte that the reader takes inside the containers: it goes to the
place of the reader, or it says that the value has ended, and the byte is taken behind it. -/
inductive Skips (base : List Frame) (b : UInt8) (r' : Reader) :
    Except (ByteError SyntaxError) (Option Skipper) → Prop
  | on {s : Reader} (stands : r' = s.inside base) : Skips base b r' (.ok (some s.skipping))
  | ended {v : Value} (behind : (deliver v base).Takes b r') : Skips base b r' (.ok none)

/-- Where the reader begins a value, the skipper does. -/
lemma skips_of_begins (outer base : List Frame) (h : Begins (outer ++ base) b r') :
    Skips base b r' ((Skipper.startValue (outer.map Frame.container) b).map some) := by
  cases h with
  | string => exact .on (s := ⟨.string .opened, outer⟩) rfl
  | array => exact .on (s := ⟨.firstItem, outer⟩) rfl
  | object => exact .on (s := ⟨.firstKey, outer⟩) rfl
  | null => exact .on (s := ⟨.literal .nullRest .null, outer⟩) rfl
  | true => exact .on (s := ⟨.literal .trueRest (.bool true), outer⟩) rfl
  | false => exact .on (s := ⟨.literal .falseRest (.bool false), outer⟩) rfl
  | @number _ token begin =>
      have hother : ∀ c, NumberToken.begin? c = none → b ≠ c :=
        fun _ => NumberToken.ne_of_begin? begin
      have hstart : Skipper.startValue (outer.map Frame.container) b =
          .ok (skipping ⟨.number token, outer⟩) := by
        simp [Skipper.startValue, NumberToken.skipping_begin? begin, skipping,
          hother Byte.quotationMark rfl, hother Byte.openBracket rfl, hother Byte.openBrace rfl,
          hother Byte.lowerN rfl, hother Byte.lowerT rfl, hother Byte.lowerF rfl]
      rw [hstart]
      exact .on rfl

/-- Where the reader is done with a value, the skipper is. -/
lemma skips_deliver (v : Value) (outer base : List Frame) (b : UInt8) :
    Skips base b (deliver v (outer ++ base)) (.ok (some ⟨.after, outer.map Frame.container⟩)) := by
  rw [← skipping_deliver v outer]
  exact .on (inside_deliver v outer base).symm

/-- Behind an item the skipper takes every byte that the reader takes. -/
lemma skips_afterItem {before : List Value} (h : Takes ⟨.afterItem before, outer ++ base⟩ b r') :
    Skips base b r' (Skipper.stepAfter (.array :: outer.map Frame.container) b) := by
  cases h with
  | blank _ blank =>
      rw [Skipper.stepAfter, if_pos blank]
      exact .on (s := ⟨.afterItem before, outer⟩) rfl
  | begin awaits => cases awaits
  | nextItem => exact .on (s := ⟨.nextItem before, outer⟩) rfl
  | endItems => exact skips_deliver _ _ _ _

/-- So it does behind a member. -/
lemma skips_afterMember {before : List (String × Value)}
    (h : Takes ⟨.afterMember before, outer ++ base⟩ b r') :
    Skips base b r' (Skipper.stepAfter (.object :: outer.map Frame.container) b) := by
  cases h with
  | blank _ blank =>
      rw [Skipper.stepAfter, if_pos blank]
      exact .on (s := ⟨.afterMember before, outer⟩) rfl
  | begin awaits => cases awaits
  | nextMember => exact .on (s := ⟨.nextKey before, outer⟩) rfl
  | endMembers => exact skips_deliver _ _ _ _

/-- Behind a value it does, unless the containers are closed again. -/
lemma skips_behind_value (h : (deliver v (outer ++ base)).Takes b r') :
    Skips base b r' (Skipper.stepAfter (outer.map Frame.container) b) := by
  cases outer with
  | nil => exact .ended h
  | cons frame outer =>
      cases frame with
      | array before => exact skips_afterItem h
      | object before key => exact skips_afterMember h

/-- Where a value is waited for, the skipper begins it with the reader. -/
lemma skips_begin {frames : List Frame} (awaits : Awaits r frames) (notBlank : isBlank b = false)
    (begins : Begins (frames ++ base) b r') : Skips base b r' (r.skipping.step b) := by
  have hclose : b ≠ Skipper.closer .array := begins.ne_closeBracket
  have hstep : r.skipping.step b =
      (Skipper.startValue (frames.map Frame.container) b).map some := by
    cases awaits <;> simp [skipping, Skipper.step, Frame.container, notBlank, hclose]
  rw [hstep]
  exact skips_of_begins frames base begins

/-- Where the skipper goes to a place, the reader may be there. -/
lemma skips_on {s : Reader} (h : r.skipping.step b = .ok (some s.skipping)) :
    Skips base b (s.inside base) (r.skipping.step b) := by
  rw [h]
  exact .on rfl

/-- Where the skipper is done with a value, the reader may be. -/
lemma skips_done {v : Value}
    (h : r.skipping.step b = .ok (some ⟨.after, outer.map Frame.container⟩)) :
    Skips base b (deliver v (outer ++ base)) (r.skipping.step b) := by
  rw [h]
  exact skips_deliver v outer base b

/-- **The skipper goes where the reader goes**, until the value has ended. -/
theorem skips_of_takes (h : (r.inside base).Takes b r') : Skips base b r' (r.skipping.step b) := by
  obtain ⟨mode, outer⟩ := r
  cases mode with
  | value =>
      change Takes ⟨.value, outer ++ base⟩ b r' at h
      cases h with
      | blank _ blank =>
          exact skips_on (s := ⟨.value, outer⟩) (by simp [skipping, Skipper.step, blank])
      | begin awaits notBlank begins =>
          cases awaits
          exact skips_begin .value notBlank begins
  | firstItem =>
      change Takes ⟨.firstItem, outer ++ base⟩ b r' at h
      cases h with
      | blank _ blank =>
          exact skips_on (s := ⟨.firstItem, outer⟩) (by simp [skipping, Skipper.step, blank])
      | begin awaits notBlank begins =>
          cases awaits
          exact skips_begin .firstItem notBlank begins
      | noItems => exact skips_done rfl
  | nextItem before =>
      change Takes ⟨.nextItem before, outer ++ base⟩ b r' at h
      cases h with
      | blank _ blank =>
          exact skips_on (s := ⟨.nextItem before, outer⟩) (by simp [skipping, Skipper.step, blank])
      | begin awaits notBlank begins =>
          cases awaits
          exact skips_begin .nextItem notBlank begins
  | afterItem before => exact skips_afterItem h
  | firstKey =>
      change Takes ⟨.firstKey, outer ++ base⟩ b r' at h
      cases h with
      | blank _ blank =>
          exact skips_on (s := ⟨.firstKey, outer⟩) (by simp [skipping, Skipper.step, blank])
      | begin awaits => cases awaits
      | noMembers => exact skips_done rfl
      | beginFirstKey => exact skips_on (s := ⟨.key [] .opened, outer⟩) rfl
  | nextKey before =>
      change Takes ⟨.nextKey before, outer ++ base⟩ b r' at h
      cases h with
      | blank _ blank =>
          exact skips_on (s := ⟨.nextKey before, outer⟩) (by simp [skipping, Skipper.step, blank])
      | begin awaits => cases awaits
      | beginKey => exact skips_on (s := ⟨.key before .opened, outer⟩) rfl
  | key before token =>
      change Takes ⟨.key before token, outer ++ base⟩ b r' at h
      cases h with
      | blank between => cases between
      | begin awaits => cases awaits
      | @key _ _ _ longer _ step =>
          have hphase := StringToken.skipping_step_of_more step
          refine skips_on (s := ⟨.key before longer, outer⟩) ?_
          simp [skipping, Skipper.step, hphase, bind, Except.bind, pure, Except.pure]
      | @endKey _ _ _ _ key step =>
          have hphase := StringToken.skipping_step_of_done step
          refine skips_on (s := ⟨.colon before key, outer⟩) ?_
          simp [skipping, Skipper.step, hphase, bind, Except.bind, pure, Except.pure]
  | colon before key =>
      change Takes ⟨.colon before key, outer ++ base⟩ b r' at h
      cases h with
      | blank _ blank =>
          exact skips_on (s := ⟨.colon before key, outer⟩) (by simp [skipping, Skipper.step, blank])
      | begin awaits => cases awaits
      | colon => exact skips_on (s := ⟨.value, .object before key :: outer⟩) rfl
  | afterMember before => exact skips_afterMember h
  | literal token meaning =>
      change Takes ⟨.literal token meaning, outer ++ base⟩ b r' at h
      cases h with
      | blank between => cases between
      | begin awaits => cases awaits
      | @literal _ longer _ _ _ step =>
          refine skips_on (s := ⟨.literal longer meaning, outer⟩) ?_
          simp [skipping, Skipper.step, step]
      | endLiteral step =>
          refine skips_done ?_
          simp [skipping, Skipper.step, step]
  | string token =>
      change Takes ⟨.string token, outer ++ base⟩ b r' at h
      cases h with
      | blank between => cases between
      | begin awaits => cases awaits
      | @string _ longer _ _ step =>
          have hphase := StringToken.skipping_step_of_more step
          refine skips_on (s := ⟨.string longer, outer⟩) ?_
          simp [skipping, Skipper.step, hphase, bind, Except.bind, pure, Except.pure]
      | endString step =>
          have hphase := StringToken.skipping_step_of_done step
          refine skips_done ?_
          simp [skipping, Skipper.step, hphase, bind, Except.bind, pure, Except.pure]
  | number token =>
      change Takes ⟨.number token, outer ++ base⟩ b r' at h
      cases h with
      | blank between => cases between
      | begin awaits => cases awaits
      | @number _ longer _ _ step =>
          have hphase := NumberToken.skipping_step_of_more step
          refine skips_on (s := ⟨.number longer, outer⟩) ?_
          simp [skipping, Skipper.step, hphase, bind, Except.bind, pure, Except.pure]
      | behindNumber step rest =>
          -- the skipper takes the byte behind the number, as the reader does
          have hphase := NumberToken.skipping_step_of_done step
          have hstep : (skipping ⟨.number token, outer⟩).step b =
              Skipper.stepAfter (outer.map Frame.container) b := by
            simp [skipping, Skipper.step, hphase, bind, Except.bind]
          rw [hstep]
          exact skips_behind_value rest
  | complete v => exact .ended h

/-- Inside a container no text ends. -/
lemma finish_inside_ne_ok (r : Reader) (frame : Frame) (base : List Frame) (w : Value) :
    (r.inside (frame :: base)).finish ≠ .ok w := by
  intro h
  have hdeliver : ∀ (v : Value) (outer : List Frame),
      (deliver v (outer ++ frame :: base)).finishOutsideNumber ≠ .ok w := by
    intro v outer hv
    cases outer with
    | nil => cases frame <;> cases hv
    | cons f outer => cases f <;> cases hv
  obtain ⟨mode, outer⟩ := r
  cases mode with
  | complete v =>
      change (deliver v (frame :: base)).finish = .ok w at h
      rw [finish_deliver] at h
      exact hdeliver v [] h
  | number token =>
      obtain ⟨n, -, h⟩ := bind_eq_ok_iff.1 h
      exact hdeliver (.number n) outer h
  | _ => cases h

end Reader

end RuleScript.Json
