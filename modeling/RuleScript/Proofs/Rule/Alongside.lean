import RuleScript.Proofs.Json.Promised
import RuleScript.Proofs.Json.Skipped
import RuleScript.Proofs.Rule.Held
import RuleScript.Rule.Reader

/-!
A rule that is read from a text, beside the value that is read from the same text.

* `Stray`: the modes from which no rule comes;
* `Tracks`: how far a rule has been read where the reader of values stands;
* `Loses`: whatever value the text still comes to, it stands for no rule;
* `Tracks.goes`: a byte that the reader of values takes keeps the two together, or no rule comes of
  either any more;
* `Tracks.readFrom_eq_ok_iff`: so at the end a rule has been read exactly if the value stands for
  it.
-/

namespace RuleScript

open RuleScript.Json (Value Frame StringToken NumberToken)
open RuleScript.Json.Reader (deliver Takes Begins)

namespace Rule.Reader

variable {r r' : Json.Reader} {mode next : Mode} {parts q : Parts} {field : Field}
  {left : List Field} {slot : Slot} {frame : Frame} {before : List Value}
  {passed : List (String × Value)} {v w : Value} {rule : Rule} {b : UInt8} {bytes : List UInt8}

/-! ### Modes from which no rule comes -/

/-- The modes in which something wrong is only read to its end. -/
def Stray : Mode → Prop
  | .wrong .. | .surplus | .repeated _ => True
  | _ => False

/-- A token of a wrong type is read to its end, and then given up. -/
lemma stray_of_stepWrong {token : WrongToken} {wanted : Wanted}
    (h : stepWrong token wanted b = .ok next) : Stray next := by
  cases token with
  | literal token meaning =>
      obtain ⟨progress, -, h⟩ := bind_eq_ok_iff.1 h
      cases progress <;> cases h
      trivial
  | string token =>
      obtain ⟨progress, -, h⟩ := bind_eq_ok_iff.1 h
      cases progress <;> cases h
      trivial
  | number token =>
      obtain ⟨phase?, -, h⟩ := bind_eq_ok_iff.1 h
      cases phase? with
      | some phase =>
          cases h
          trivial
      | none =>
          simp only at h
          split at h <;> cases h

lemma Stray.step (h : Stray mode) (hstep : step mode b = .ok next) : Stray next := by
  cases mode with
  | surplus =>
      simp only [Reader.step] at hstep
      split at hstep
      · cases hstep
        trivial
      · split at hstep <;> cases hstep
  | repeated field =>
      simp only [Reader.step] at hstep
      split at hstep
      · cases hstep
        trivial
      · split at hstep <;> cases hstep
  | wrong token wanted => exact stray_of_stepWrong hstep
  | _ => cases h

/-- No rule comes of them. -/
lemma Stray.readFrom_ne_ok (h : Stray mode) (p : Json.Position) (bytes : List UInt8) (rule : Rule) :
    readFrom mode p bytes ≠ .ok rule := by
  induction bytes generalizing mode p with
  | nil =>
      intro hread
      rw [readFrom, mapError_eq_ok_iff] at hread
      cases mode with
      | wrong token wanted =>
          cases token with
          | number token =>
              simp only [finish] at hread
              split at hread <;> cases hread
          | _ => cases hread
      | surplus => cases hread
      | repeated field => cases hread
      | _ => cases h
  | cons b bytes ih =>
      rw [readFrom]
      split
      · next hstep => exact ih (h.step hstep) _
      · simp

/-! ### Parts read so far -/

/-- The parts of a rule, in their order in an array. -/
def fields : List Field := [.name, .pattern, .emitter]

lemma index_of_drop_fields {n : ℕ} (h : field :: left = fields.drop n) :
    field.index = n ∧ left = fields.drop (n + 1) ∧ n < 3 := by
  rcases n with _ | _ | _ | n
  · cases h
    exact ⟨rfl, rfl, by decide⟩
  · cases h
    exact ⟨rfl, rfl, by decide⟩
  · cases h
    exact ⟨rfl, rfl, by decide⟩
  · simp [fields] at h

/-- The parts are read from the items of an array, the last one first, and the others are left. -/
structure Items (before : List Value) (parts : Parts) (left : List Field) : Prop where
  from_held : parts.From fun f => before.reverse[f.index]?
  left_eq : left = fields.drop before.length
  length_le : before.length ≤ 3

/-- The parts are read from the members of an object, the last one first. -/
abbrev Members (passed : List (String × Value)) (parts : Parts) : Prop :=
  parts.From fun f => Entries.get? f.key passed

lemma items_nil : Items [] .none [.name, .pattern, .emitter] :=
  ⟨Parts.none_from, rfl, by decide⟩

lemma members_nil : Members [] .none := Parts.none_from

/-- An item is the part whose turn it is. -/
lemma Items.cons (h : Items before parts (field :: left)) (hread : parts.read field v = .ok q) :
    Items (v :: before) q left := by
  obtain ⟨hindex, hleft, hlt⟩ := index_of_drop_fields h.left_eq
  refine ⟨h.from_held.read hread ?_ ?_, hleft, Nat.succ_le_of_lt hlt⟩
  · rw [List.reverse_cons, hindex]
    simp
  · intro g hg
    have hne : g.index ≠ before.length := by
      rw [← hindex]
      exact fun heq => hg (Field.index_injective heq)
    rw [List.reverse_cons]
    by_cases hlt : g.index < before.length
    · exact List.getElem?_append_left (by simpa using hlt)
    · rw [List.getElem?_eq_none (by simp; omega), List.getElem?_eq_none (by simp; omega)]

/-- A member of a part is read as the part. -/
lemma Members.cons (h : Members passed parts) (hread : parts.read field v = .ok q) :
    Members ((field.key, v) :: passed) q :=
  h.read hread (if_pos rfl) fun _ hg => if_neg fun hkey => hg (Field.key_injective hkey.symm)

/-- A member that is no part is passed over. -/
lemma Members.cons_other {key : String} (h : Members passed parts) (hkey : Field.ofKey? key = none)
    (v : Value) : Members ((key, v) :: passed) parts := by
  intro f
  have hget : Entries.get? f.key ((key, v) :: passed) = Entries.get? f.key passed :=
    if_neg (Field.key_ne_of_ofKey? hkey f)
  dsimp only
  rw [hget]
  exact h f

/-- The text of a part stands in the container that is read. -/
inductive Fits : Parts → Field → Slot → Frame → Prop
  | item {before : List Value} {parts : Parts} {field : Field} {left : List Field}
      (items : Items before parts (field :: left)) : Fits parts field (.item left) (.array before)
  | member {passed : List (String × Value)} {parts : Parts} {field : Field}
      (members : Members passed parts) : Fits parts field .member (.object passed field.key)

/-! ### The two side by side -/

/-- How far a rule has been read where the reader of values stands. -/
inductive Tracks : Json.Reader → Mode → Prop
  | start : Tracks .start .start
  | firstItem : Tracks ⟨.firstItem, []⟩ .firstItem
  | nextItem {before : List Value} {parts : Parts} {field : Field} {left : List Field}
      (items : Items before parts (field :: left)) :
    Tracks ⟨.nextItem before, []⟩ (.nextItem parts field left)
  | afterItem {before : List Value} {parts : Parts} {left : List Field}
      (items : Items before parts left) (ne_nil : left ≠ []) :
    Tracks ⟨.afterItem before, []⟩ (.afterItem parts left)
  | lastBracket {before : List Value} {parts : Parts} (items : Items before parts []) :
    Tracks ⟨.afterItem before, []⟩ (.lastBracket parts)
  | firstKey : Tracks ⟨.firstKey, []⟩ .firstKey
  | nextKey {passed : List (String × Value)} {parts : Parts} (members : Members passed parts) :
    Tracks ⟨.nextKey passed, []⟩ (.nextKey parts)
  | key {passed : List (String × Value)} {parts : Parts} {token : StringToken}
      (members : Members passed parts) : Tracks ⟨.key passed token, []⟩ (.key parts token)
  | colon {passed : List (String × Value)} {parts : Parts} {key : String}
      (members : Members passed parts) :
    Tracks ⟨.colon passed key, []⟩ (.colon parts (Field.ofKey? key))
  | member {passed : List (String × Value)} {parts : Parts} {field : Field}
      (members : Members passed parts) :
    Tracks ⟨.value, [.object passed field.key]⟩ (.member parts field)
  | text {parts : Parts} {field : Field} {slot : Slot} {frame : Frame} {token : StringToken}
      (fits : Fits parts field slot frame) :
    Tracks ⟨.string token, [frame]⟩ (.text parts field slot token)
  | noEmitter {parts : Parts} {slot : Slot} {frame : Frame} {token : Json.Literal}
      (fits : Fits parts .emitter slot frame) :
    Tracks ⟨.literal token .null, [frame]⟩ (.noEmitter parts slot token)
  | skipped {passed : List (String × Value)} {parts : Parts} {key : String} {inner : Json.Reader}
      (members : Members passed parts) (other : Field.ofKey? key = none) :
    Tracks (inner.inside [.object passed key]) (.skipped parts inner.skipping)
  | afterMember {passed : List (String × Value)} {parts : Parts}
      (members : Members passed parts) : Tracks ⟨.afterMember passed, []⟩ (.afterMember parts)
  | complete {w : Value} {rule : Rule} (stands : Stands w.merged rule) :
    Tracks ⟨.complete w, []⟩ (.complete rule)

/-- No key of a part comes twice at the top of a written value. -/
def PartsOnce (w : Value) : Prop :=
  ∀ members, w = .object members → ∀ f : Field, (members.map Prod.fst).count f.key ≤ 1

/-- Whatever the reader of values still ends with, it stands for no rule. -/
def Loses (r : Json.Reader) : Prop :=
  ∀ w, r.Promises w → PartsOnce w → ∀ rule, ¬ Stands w.merged rule

/-- Behind a byte that led the reader of values here: the rule is read on beside it, or nothing that
stands for a rule can come any more, and no rule is read either. -/
inductive Goes (r : Json.Reader) : Step Mode → Prop
  | on {mode : Mode} (tracks : Tracks r mode) : Goes r (.ok mode)
  | astray {mode : Mode} (stray : Stray mode) (loses : Loses r) : Goes r (.ok mode)
  | out {e : Json.ByteError TextError} (loses : Loses r) : Goes r (.error e)

/-! ### What is lost -/

/-- What is read for a part is a string, or null for an emitter. -/
lemma eq_of_decode_ok {a : Option String} (h : decode field v = .ok a) :
    (∃ s, v = .string s) ∨ field = .emitter ∧ v = .null := by
  cases field with
  | name =>
      obtain ⟨s, hs, -⟩ := map_eq_ok_iff.1 h
      exact .inl ⟨s, textOf_eq_ok_iff.1 hs⟩
  | pattern =>
      obtain ⟨s, hs, -⟩ := map_eq_ok_iff.1 h
      exact .inl ⟨s, textOf_eq_ok_iff.1 hs⟩
  | emitter =>
      have hemitter : emitterOf v = .ok a := h
      rw [emitterOf_eq_ok_iff] at hemitter
      cases hemitter with
      | null => exact .inr ⟨rfl, rfl⟩
      | text s => exact .inl ⟨s, rfl⟩

/-- A scalar stands for no rule. -/
lemma loses_of_scalar (houter : r.outer = [])
    (hscalar : ∀ v, r.mode.MayBecome v →
      (∀ items, v ≠ .array items) ∧ ∀ members, v ≠ .object members) : Loses r := by
  intro w hw _ rule hstands
  obtain ⟨harray, hobject⟩ := hscalar w (Json.Reader.mayBecome_of_promises houter hw)
  cases w with
  | array items => exact harray items rfl
  | object members => exact hobject members rfl
  | _ =>
      simp only [Value.merged] at hstands
      cases hstands

/-- A value of a wrong type in the place of a part spoils the rule, whatever comes behind it. -/
lemma loses_of_wrong (fits : Fits parts field slot frame) (houter : r.outer = [frame])
    (hwrong : ∀ v, r.mode.MayBecome v →
      (∀ s, v ≠ .string s) ∧ (field = .emitter → v ≠ .null)) : Loses r := by
  have hdecode : ∀ v, r.mode.MayBecome v → ∀ a, decode field v ≠ .ok a := by
    intro v hmode a ha
    obtain ⟨hstring, hnull⟩ := hwrong v hmode
    obtain ⟨s, hs⟩ | ⟨hfield, hv⟩ := eq_of_decode_ok ha
    · exact hstring s hs
    · exact hnull hfield hv
  intro w hw honce rule hstands
  cases fits with
  | @item before _ _ _ items =>
      obtain ⟨v, later, hmode, rfl⟩ := Json.Reader.exists_item_of_promises houter hw
      obtain ⟨hindex, -, -⟩ := index_of_drop_fields items.left_eq
      have hheld : (before.reverse ++ v :: later)[field.index]? = some v := by simp [hindex]
      obtain ⟨a, ha⟩ := (stands_array_merged_iff.1 hstands).2.exists_decode hheld
      exact hdecode v hmode a ha
  | @member passed _ _ members =>
      obtain ⟨v, later, hmode, rfl⟩ := Json.Reader.exists_member_of_promises houter hw
      have hcount := honce _ rfl field
      rw [← List.count_reverse, ← List.map_reverse] at hcount
      have hheld : Entries.get? field.key (passed.reverse ++ (field.key, v) :: later).reverse =
          some v := Entries.get?_of_mem (by simp) hcount
      obtain ⟨a, ha⟩ := (stands_object_merged_iff.1 hstands).exists_decode hheld
      exact hdecode v hmode a ha

/-- Behind all three parts no item may come. -/
lemma loses_of_surplus (items : Items before parts []) : Loses ⟨.nextItem before, []⟩ := by
  intro w hw _ rule hstands
  have hlength : 3 ≤ before.length := by simpa [fields] using items.left_eq
  cases Json.Reader.mayBecome_of_promises rfl hw
  have hle := (stands_array_merged_iff.1 hstands).1
  simp only [List.length_append, List.length_reverse, List.length_cons] at hle
  omega

/-- The key of a part that has been read must not come again. -/
lemma loses_of_repeated (members : Members passed parts) (hhas : parts.has field = true) :
    Loses ⟨.colon passed field.key, []⟩ := by
  intro w hw honce rule _
  cases Json.Reader.mayBecome_of_promises rfl hw
  obtain ⟨v, hv⟩ := members.exists_held hhas
  have hcount := honce _ rfl field
  have hpos : 0 < (passed.map Prod.fst).count field.key :=
    List.count_pos_iff.2 (Entries.mem_keys_of_get? hv)
  simp only [List.map_append, List.map_reverse, List.map_cons, List.count_append,
    List.count_reverse, List.count_cons_self] at hcount
  omega

/-- Where no rule comes of the whole value, it is lost. -/
lemma loses_of_complete (h : ∀ rule, ¬ Stands w.merged rule) : Loses (deliver w []) := by
  intro w' hw _
  cases Json.Reader.mayBecome_of_promises rfl hw
  exact h

/-! ### Single steps -/

lemma goes_of_loses {outcome : Step Mode} (hloses : Loses r)
    (hstray : ∀ next, outcome = .ok next → Stray next) : Goes r outcome := by
  cases outcome with
  | ok mode => exact .astray (hstray mode rfl) hloses
  | error e => exact .out hloses

/-- Something of a wrong type is given up, now or at its end. -/
lemma stray_of_startWrong {wanted : Wanted} (h : startWrong wanted b = .ok next) : Stray next := by
  unfold startWrong at h
  repeat' split at h
  all_goals cases h
  all_goals trivial

/-- What begins in the place of a part is the text of the part, or its absence, or the rule is
lost. -/
lemma goes_startPart (fits : Fits parts field slot frame) (h : Begins [frame] b r) :
    Goes r (startPart parts field slot b) := by
  have hother : b ≠ Json.Byte.quotationMark → ¬ (field = .emitter ∧ b = Json.Byte.lowerN) →
      Loses r → Goes r (startPart parts field slot b) := by
    intro hquote hnull hloses
    rw [startPart, if_neg hquote, if_neg hnull]
    exact goes_of_loses hloses fun _ => stray_of_startWrong
  cases h with
  | string => exact .on (.text fits)
  | null =>
      by_cases hfield : field = .emitter
      · subst hfield
        exact .on (.noEmitter fits)
      · refine hother (by decide) (by simp [hfield]) (loses_of_wrong fits rfl ?_)
        rintro _ ⟨⟩
        simp [hfield]
  | number begin =>
      have hnull : b ≠ Json.Byte.lowerN := NumberToken.ne_of_begin? begin rfl
      refine hother (NumberToken.ne_of_begin? begin rfl) (by simp [hnull])
        (loses_of_wrong fits rfl ?_)
      rintro _ ⟨⟩
      simp
  | _ =>
      refine hother (by decide) (fun h => absurd h.2 (by decide)) (loses_of_wrong fits rfl ?_)
      rintro _ ⟨⟩
      simp

/-- Behind a part the container goes on. -/
lemma tracks_afterPart (fits : Fits parts field slot frame) (hread : parts.read field v = .ok q) :
    Tracks (deliver v [frame]) (afterPart q slot) := by
  cases fits with
  | @item _ _ _ left items =>
      have hitems := items.cons hread
      cases left with
      | nil => exact .lastBracket hitems
      | cons next rest => exact .afterItem hitems (by simp)
  | member members => exact .afterMember (members.cons hread)

/-- At the end of its container a rule has been read if the parts make the one that the value stands
for. -/
lemma goes_of_complete (parts : Parts) {outcome : Step Mode}
    (hstands : ∀ rule, parts.complete = .ok rule ↔ Stands w.merged rule)
    (hok : ∀ rule, parts.complete = .ok rule → outcome = .ok (.complete rule))
    (herror : ∀ e, parts.complete = .error e → ∃ e', outcome = .error e') :
    Goes (deliver w []) outcome := by
  cases hcomplete : parts.complete with
  | ok rule =>
      rw [hok rule hcomplete]
      exact .on (.complete ((hstands rule).1 hcomplete))
  | error e =>
      obtain ⟨e', he⟩ := herror e hcomplete
      rw [he]
      refine .out (loses_of_complete fun rule hrule => ?_)
      rw [(hstands rule).2 hrule] at hcomplete
      cases hcomplete

lemma goes_closeItems (items : Items before parts left) :
    Goes (deliver (.array before.reverse) []) (closeItems parts left) := by
  refine goes_of_complete parts (fun rule => ?_)
    (fun rule h => by rw [closeItems, h]) (fun e h => ⟨_, by rw [closeItems, h]; rfl⟩)
  rw [items.from_held.complete_eq_ok_iff, stands_array_merged_iff, List.length_reverse,
    and_iff_right items.length_le]

lemma goes_closeMembers (members : Members passed parts) :
    Goes (deliver (.object passed.reverse) []) (closeMembers parts) := by
  refine goes_of_complete parts (fun rule => ?_)
    (fun rule h => by rw [closeMembers, h]) (fun e h => ⟨_, by rw [closeMembers, h]; rfl⟩)
  rw [members.complete_eq_ok_iff, stands_object_merged_iff, List.reverse_reverse]

lemma goes_stepAfterMember (members : Members passed parts)
    (h : Takes ⟨.afterMember passed, []⟩ b r) : Goes r (stepAfterMember parts b) := by
  cases h with
  | blank _ blank =>
      rw [stepAfterMember, if_pos blank]
      exact .on (.afterMember members)
  | begin awaits => cases awaits
  | nextMember => exact .on (.nextKey members)
  | endMembers => exact goes_closeMembers members

/-- Behind a key its member is awaited, unless the key is that of a part that has been read. -/
lemma goes_afterKey (members : Members passed parts) (key : String) :
    Goes ⟨.colon passed key, []⟩ (.ok (afterKey parts key)) := by
  have hcolon : Tracks ⟨.colon passed key, []⟩ (.colon parts (Field.ofKey? key)) := .colon members
  rw [afterKey]
  cases hfield : Field.ofKey? key with
  | none =>
      rw [hfield] at hcolon
      exact .on hcolon
  | some field =>
      rw [hfield] at hcolon
      dsimp only
      split
      · next hhas =>
        obtain rfl := Field.key_of_ofKey? hfield
        have hstray : Stray (.repeated field) := trivial
        exact .astray hstray (loses_of_repeated members hhas)
      · exact .on hcolon

/-- What begins in the place of the rule is an array or an object, or the rule is lost. -/
lemma goes_start (hblank : Json.isBlank b = false) (h : Begins [] b r) :
    Goes r (step .start b) := by
  have hother : b ≠ Json.Byte.openBracket → b ≠ Json.Byte.openBrace → Loses r →
      Goes r (step .start b) := by
    intro hbracket hbrace hloses
    have hstep : step .start b = startWrong .rule b := by simp [step, hblank, hbracket, hbrace]
    rw [hstep]
    exact goes_of_loses hloses fun _ => stray_of_startWrong
  cases h with
  | array => exact .on .firstItem
  | object => exact .on .firstKey
  | number begin =>
      refine hother (NumberToken.ne_of_begin? begin rfl) (NumberToken.ne_of_begin? begin rfl)
        (loses_of_scalar rfl ?_)
      rintro _ ⟨⟩
      simp
  | _ =>
      refine hother (by decide) (by decide) (loses_of_scalar rfl ?_)
      rintro _ ⟨⟩
      simp

/-- Where the rule is read on, the two stay together. -/
lemma goes_on (h : Tracks r next) (hstep : step mode b = .ok next) : Goes r (step mode b) := by
  rw [hstep]
  exact .on h

/-! ### Every byte -/

/-- **The two ways stay together at every byte**, or no rule comes of either. -/
theorem Tracks.goes (h : Tracks r mode) (hr : r.Takes b r') : Goes r' (step mode b) := by
  cases h with
  | start =>
      cases hr with
      | blank _ blank => exact goes_on .start (if_pos blank)
      | begin awaits notBlank begins =>
          cases awaits
          exact goes_start notBlank begins
  | firstItem =>
      cases hr with
      | blank _ blank => exact goes_on .firstItem (if_pos blank)
      | begin awaits notBlank begins =>
          cases awaits
          have hstep : step .firstItem b =
              startPart .none .name (.item [.pattern, .emitter]) b := by
            simp [step, notBlank, begins.ne_closeBracket]
          rw [hstep]
          exact goes_startPart (.item items_nil) begins
      | noItems =>
          refine .out (loses_of_complete fun rule hrule => ?_)
          have hname := (stands_array_merged_iff.1 hrule).2.name_eq
          cases hname
  | @nextItem before parts field left items =>
      cases hr with
      | blank _ blank => exact goes_on (.nextItem items) (if_pos blank)
      | begin awaits notBlank begins =>
          cases awaits
          have hstep : step (.nextItem parts field left) b =
              startPart parts field (.item left) b := by
            simp [step, notBlank, begins.ne_closeBracket]
          rw [hstep]
          exact goes_startPart (.item items) begins
  | @afterItem before parts left items ne_nil =>
      cases hr with
      | blank _ blank => exact goes_on (.afterItem items ne_nil) (if_pos blank)
      | begin awaits => cases awaits
      | nextItem =>
          obtain ⟨field, rest, rfl⟩ := List.exists_cons_of_ne_nil ne_nil
          exact .on (.nextItem items)
      | endItems => exact goes_closeItems items
  | lastBracket items =>
      cases hr with
      | blank _ blank => exact goes_on (.lastBracket items) (if_pos blank)
      | begin awaits => cases awaits
      | nextItem =>
          have hstray : Stray .surplus := trivial
          exact .astray hstray (loses_of_surplus items)
      | endItems => exact goes_closeItems items
  | firstKey =>
      cases hr with
      | blank _ blank => exact goes_on .firstKey (if_pos blank)
      | begin awaits => cases awaits
      | noMembers => exact goes_closeMembers members_nil
      | beginFirstKey => exact .on (.key members_nil)
  | nextKey members =>
      cases hr with
      | blank _ blank => exact goes_on (.nextKey members) (if_pos blank)
      | begin awaits => cases awaits
      | beginKey => exact .on (.key members)
  | @key passed parts token members =>
      cases hr with
      | blank between => cases between
      | begin awaits => cases awaits
      | @key _ _ _ longer _ hlonger =>
          refine goes_on (.key members) ?_
          simp [step, ofToken, hlonger, bind, Except.bind, pure, Except.pure]
      | @endKey _ _ _ _ key hkey =>
          have hstep : step (.key parts token) b = .ok (afterKey parts key) := by
            simp [step, ofToken, hkey, bind, Except.bind, pure, Except.pure]
          rw [hstep]
          exact goes_afterKey members key
  | @colon passed parts key members =>
      cases hr with
      | blank _ blank => exact goes_on (.colon members) (if_pos blank)
      | begin awaits => cases awaits
      | colon =>
          cases hfield : Field.ofKey? key with
          | none =>
              have hstart : Tracks (Json.Reader.start.inside [.object passed key])
                  (.skipped parts Json.Reader.start.skipping) := .skipped members hfield
              exact .on hstart
          | some field =>
              obtain rfl := Field.key_of_ofKey? hfield
              exact .on (.member members)
  | @member passed parts field members =>
      cases hr with
      | blank _ blank => exact goes_on (.member members) (if_pos blank)
      | begin awaits notBlank begins =>
          cases awaits
          have hstep : step (.member parts field) b = startPart parts field .member b := by
            simp [step, notBlank]
          rw [hstep]
          exact goes_startPart (.member members) begins
  | @text parts field slot frame token fits =>
      cases hr with
      | blank between => cases between
      | begin awaits => cases awaits
      | @string _ longer _ _ hlonger =>
          refine goes_on (.text fits) ?_
          simp [step, ofToken, hlonger, bind, Except.bind, pure, Except.pure]
      | @endString _ _ _ s hs =>
          have hread : parts.read field (.string s) = .ok (parts.put field s) := by
            cases field <;> rfl
          refine goes_on (tracks_afterPart fits hread) ?_
          simp [step, ofToken, hs, bind, Except.bind, pure, Except.pure]
  | @noEmitter parts slot frame token fits =>
      cases hr with
      | blank between => cases between
      | begin awaits => cases awaits
      | @literal _ longer _ _ _ hlonger =>
          refine goes_on (.noEmitter fits) ?_
          simp [step, ofToken, hlonger, bind, Except.bind, pure, Except.pure]
      | endLiteral hend =>
          have hread : parts.read .emitter .null = .ok parts.putNoEmitter := rfl
          refine goes_on (tracks_afterPart fits hread) ?_
          simp [step, ofToken, hend, bind, Except.bind, pure, Except.pure]
  | @skipped passed parts key inner members other =>
      -- the byte belongs to the member that is passed over, or to what follows it
      have hskips := Json.Reader.skips_of_takes hr
      rw [step]
      generalize inner.skipping.step b = result at hskips
      cases hskips with
      | @on s stands =>
          rw [stands]
          exact .on (.skipped members other)
      | @ended v behind => exact goes_stepAfterMember (members.cons_other other v) behind
  | afterMember members => exact goes_stepAfterMember members hr
  | complete stands =>
      cases hr with
      | blank _ blank => exact goes_on (.complete stands) (if_pos blank)
      | begin awaits => cases awaits

/-! ### Whole texts -/

/-- At the end of the text the rule has been read if the value stands for it. -/
lemma Tracks.finish_eq_ok_iff (h : Tracks r mode) (hfinish : r.finish = .ok w) :
    finish mode = .ok rule ↔ Stands w.merged rule := by
  cases h with
  | @complete w' rule' stands =>
      obtain rfl : w' = w := Except.ok.inj hfinish
      rw [← Rule.ofValue_eq_ok_iff] at stands
      rw [← Rule.ofValue_eq_ok_iff, stands, finish, Except.ok.injEq, Except.ok.injEq]
  | skipped => exact absurd hfinish (Json.Reader.finish_inside_ne_ok _ _ _ _)
  | _ => cases hfinish

/-- **A rule is read from the rest of a text exactly if the whole value stands for it**, as long as
no key of a part comes twice. -/
theorem Tracks.readFrom_eq_ok_iff (h : Tracks r mode) (hproper : r.Proper)
    (hrun : r.run bytes = .ok r') (hfinish : r'.finish = .ok w) (honce : PartsOnce w)
    (p : Json.Position) : readFrom mode p bytes = .ok rule ↔ Stands w.merged rule := by
  induction bytes generalizing r mode p with
  | nil =>
      obtain rfl := Except.ok.inj hrun
      rw [readFrom, mapError_eq_ok_iff]
      exact h.finish_eq_ok_iff hfinish
  | cons b bytes ih =>
      cases hstep : r.step b with
      | error e =>
          rw [Json.Reader.run_cons_of_error hstep] at hrun
          cases hrun
      | ok r₁ =>
          rw [Json.Reader.run_cons_of_ok hstep] at hrun
          have hproper₁ := (Json.Reader.step_tokens hproper hstep).proper
          -- what the reader of values ends with is promised behind this byte already
          have hpromises := Json.Reader.promises_of_run hproper₁ hrun hfinish
          have hgoes := h.goes (Json.Reader.takes_of_step hstep)
          rw [readFrom]
          generalize step mode b = outcome at hgoes
          cases hgoes with
          | on tracks => exact ih tracks hproper₁ hrun _
          | astray stray loses =>
              exact iff_of_false (stray.readFrom_ne_ok _ _ _) (loses w hpromises honce rule)
          | out loses => exact iff_of_false (by simp) (loses w hpromises honce rule)

end Rule.Reader

end RuleScript
