import RuleScript.Proofs.Json.Tokens

/-!
What is already settled about a value while it is being read.

* `Around`: a value stands in the innermost of some frames;
* `Mode.MayBecome`: what the reader is in the middle of may become a value;
* `Reader.Promises`: the values that the reader may still end with, in which everything that it has
  read stays where it is;
* `Reader.promises_of_run`: what the reader ends with, it has promised all the time.
-/

namespace RuleScript.Json

/-! ### Values inside others -/

/-- A value stands in the innermost of some frames, whatever comes behind it there, and the
outermost frame, once it is closed, is the whole. -/
inductive Around : List Frame → Value → Value → Prop
  | none {v : Value} : Around [] v v
  | array {before later : List Value} {outer : List Frame} {v w : Value}
      (whole : Around outer (.array (before.reverse ++ v :: later)) w) :
    Around (.array before :: outer) v w
  | object {before later : List (String × Value)} {key : String} {outer : List Frame} {v w : Value}
      (whole : Around outer (.object (before.reverse ++ (key, v) :: later)) w) :
    Around (.object before key :: outer) v w

/-- What the reader is in the middle of may become the value. -/
inductive Mode.MayBecome : Mode → Value → Prop
  | value {v : Value} : MayBecome .value v
  | firstItem {items : List Value} : MayBecome .firstItem (.array items)
  | nextItem {before later : List Value} {v : Value} :
    MayBecome (.nextItem before) (.array (before.reverse ++ v :: later))
  | afterItem {before later : List Value} :
    MayBecome (.afterItem before) (.array (before.reverse ++ later))
  | firstKey {members : List (String × Value)} : MayBecome .firstKey (.object members)
  | nextKey {before later : List (String × Value)} {m : String × Value} :
    MayBecome (.nextKey before) (.object (before.reverse ++ m :: later))
  | key {before later : List (String × Value)} {token : StringToken} {m : String × Value} :
    MayBecome (.key before token) (.object (before.reverse ++ m :: later))
  | colon {before later : List (String × Value)} {key : String} {v : Value} :
    MayBecome (.colon before key) (.object (before.reverse ++ (key, v) :: later))
  | afterMember {before later : List (String × Value)} :
    MayBecome (.afterMember before) (.object (before.reverse ++ later))
  | literal {token : Literal} {meaning : Value} : MayBecome (.literal token meaning) meaning
  | number {token : NumberToken} {n : Number} : MayBecome (.number token) (.number n)
  | string {token : StringToken} {s : String} : MayBecome (.string token) (.string s)
  | complete {v : Value} : MayBecome (.complete v) v

namespace Reader

variable {r r' : Reader} {outer : List Frame} {v w : Value} {b : UInt8} {bytes : List UInt8}

/-- The reader may still end with the value: what it is in the middle of may become a value around
which the frames close to this one. -/
def Promises (r : Reader) (w : Value) : Prop := ∃ v, r.mode.MayBecome v ∧ Around r.outer v w

/-- Outside all containers, what is being read is the whole. -/
lemma mayBecome_of_promises (houter : r.outer = []) (h : r.Promises w) : r.mode.MayBecome w := by
  obtain ⟨v, hmode, haround⟩ := h
  rw [houter] at haround
  cases haround
  exact hmode

/-- In an array at the top, what is being read becomes the next item. -/
lemma exists_item_of_promises {before : List Value} (houter : r.outer = [.array before])
    (h : r.Promises w) :
    ∃ v later, r.mode.MayBecome v ∧ w = .array (before.reverse ++ v :: later) := by
  obtain ⟨v, hmode, haround⟩ := h
  rw [houter] at haround
  cases haround with
  | @array _ later _ _ _ whole =>
      cases whole
      exact ⟨v, later, hmode, rfl⟩

/-- In an object at the top, it becomes the value of the next member. -/
lemma exists_member_of_promises {before : List (String × Value)} {key : String}
    (houter : r.outer = [.object before key]) (h : r.Promises w) :
    ∃ v later, r.mode.MayBecome v ∧ w = .object (before.reverse ++ (key, v) :: later) := by
  obtain ⟨v, hmode, haround⟩ := h
  rw [houter] at haround
  cases haround with
  | @object _ later _ _ _ _ whole =>
      cases whole
      exact ⟨v, later, hmode, rfl⟩

/-- A value that has been read stays in the container around it. -/
lemma around_of_promises_deliver (h : (deliver v outer).Promises w) : Around outer v w := by
  obtain ⟨u, hmode, haround⟩ := h
  cases outer with
  | nil =>
      cases hmode
      exact haround
  | cons frame outer =>
      cases frame with
      | array before =>
          cases hmode
          rw [List.reverse_cons, List.append_assoc, List.singleton_append] at haround
          exact .array haround
      | object before key =>
          cases hmode
          rw [List.reverse_cons, List.append_assoc, List.singleton_append] at haround
          exact .object haround

/-- What is promised behind a byte was promised before it. -/
lemma Takes.promises (h : r.Takes b r') (hw : r'.Promises w) : r.Promises w := by
  induction h with
  | blank => exact hw
  | begin awaits _ begins =>
      obtain ⟨v, -, haround⟩ := hw
      rw [begins.outer_eq] at haround
      cases awaits with
      | value => exact ⟨v, .value, haround⟩
      | firstItem =>
          cases haround with
          | array whole => exact ⟨_, .firstItem, whole⟩
      | nextItem =>
          cases haround with
          | array whole => exact ⟨_, .nextItem, whole⟩
  | noItems => exact ⟨_, .firstItem, around_of_promises_deliver hw⟩
  | nextItem =>
      obtain ⟨_, ⟨⟩, haround⟩ := hw
      exact ⟨_, .afterItem, haround⟩
  | @endItems before outer =>
      have haround := around_of_promises_deliver hw
      rw [← List.append_nil before.reverse] at haround
      exact ⟨_, .afterItem, haround⟩
  | noMembers => exact ⟨_, .firstKey, around_of_promises_deliver hw⟩
  | beginFirstKey =>
      obtain ⟨_, ⟨⟩, haround⟩ := hw
      exact ⟨_, .firstKey, haround⟩
  | beginKey =>
      obtain ⟨_, ⟨⟩, haround⟩ := hw
      exact ⟨_, .nextKey, haround⟩
  | key =>
      obtain ⟨_, ⟨⟩, haround⟩ := hw
      exact ⟨_, .key, haround⟩
  | endKey =>
      obtain ⟨_, ⟨⟩, haround⟩ := hw
      exact ⟨_, .key, haround⟩
  | colon =>
      obtain ⟨_, -, haround⟩ := hw
      cases haround with
      | object whole => exact ⟨_, .colon, whole⟩
  | nextMember =>
      obtain ⟨_, ⟨⟩, haround⟩ := hw
      exact ⟨_, .afterMember, haround⟩
  | @endMembers before outer =>
      have haround := around_of_promises_deliver hw
      rw [← List.append_nil before.reverse] at haround
      exact ⟨_, .afterMember, haround⟩
  | literal =>
      obtain ⟨_, ⟨⟩, haround⟩ := hw
      exact ⟨_, .literal, haround⟩
  | endLiteral => exact ⟨_, .literal, around_of_promises_deliver hw⟩
  | string =>
      obtain ⟨_, ⟨⟩, haround⟩ := hw
      exact ⟨_, .string, haround⟩
  | endString => exact ⟨_, .string, around_of_promises_deliver hw⟩
  | number =>
      obtain ⟨_, ⟨⟩, haround⟩ := hw
      exact ⟨_, .number, haround⟩
  | behindNumber _ _ ih => exact ⟨_, .number, around_of_promises_deliver (ih hw)⟩

/-- What the reader ends with is promised at the end. -/
lemma promises_of_finish (hproper : r.Proper) (h : r.finish = .ok w) : r.Promises w := by
  obtain ⟨mode, outer⟩ := r
  cases mode with
  | complete v =>
      cases h
      obtain rfl : outer = [] := hproper.closed w rfl
      exact ⟨w, .complete, .none⟩
  | number token =>
      obtain ⟨n, -, h⟩ := bind_eq_ok_iff.1 h
      cases outer with
      | nil =>
          cases h
          exact ⟨_, .number, .none⟩
      | cons frame outer => cases frame <;> cases h
  | _ => cases h

/-- **What the reader ends with, it has promised all the time.** -/
theorem promises_of_run (hproper : r.Proper) (hrun : r.run bytes = .ok r')
    (hfinish : r'.finish = .ok w) : r.Promises w := by
  induction bytes generalizing r with
  | nil =>
      cases hrun
      exact promises_of_finish hproper hfinish
  | cons b bytes ih =>
      cases hstep : r.step b with
      | error e =>
          rw [run_cons_of_error hstep] at hrun
          cases hrun
      | ok r₁ =>
          rw [run_cons_of_ok hstep] at hrun
          have hproper₁ := (step_tokens hproper hstep).proper
          exact (takes_of_step hstep).promises (ih hproper₁ hrun)

end Reader

end RuleScript.Json
