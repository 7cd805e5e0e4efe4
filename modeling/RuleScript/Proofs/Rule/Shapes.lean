import RuleScript.Proofs.Result
import RuleScript.Rule.Decode

/-!
The shapes in which rules and tables stand: `Rule.Stands` says of a value that it stands for a rule,
without any word on how it is read.

* `Rule.readMembers_eq_ok_iff`: reading the members of an object keeps each part that has been read and
  takes each other one from the first member of its key, whatever the order of the members;
* `Rule.ofValue_eq_ok_iff`: a value is read as a rule exactly if it stands for the rule;
* `RuleTable.ofValue_eq_ok_iff`: a value is read as a table exactly if it is an array of values that
  stand for the rules, one by one.
-/

namespace RuleScript

open RuleScript.Json (Value)

namespace Rule

/-! ### Shapes -/

/-- What stands for an emitter, if anything does: nothing and null for none, a string for itself. -/
inductive EmitterStands : Option Value → Option String → Prop
  | absent : EmitterStands none none
  | null : EmitterStands (some .null) none
  | text (emitter : String) : EmitterStands (some (.string emitter)) (some emitter)

/-- What stands for a rule: an object with a name, a pattern and possibly an emitter, among any other
members, or an array of these. -/
inductive Stands : Value → Rule → Prop
  | object {members : List (String × Value)} {name pattern : String} {emitter : Option String}
      (name_eq : Entries.get? "name" members = some (.string name))
      (pattern_eq : Entries.get? "pattern" members = some (.string pattern))
      (emitter_stands : EmitterStands (Entries.get? "emitter" members) emitter) :
    Stands (.object members) ⟨name, pattern, emitter⟩
  | array {name pattern : String} {third : Option Value} {emitter : Option String}
      (emitter_stands : EmitterStands third emitter) :
    Stands (.array (.string name :: .string pattern :: third.toList)) ⟨name, pattern, emitter⟩

/-! ### Single parts -/

lemma textOf_eq_ok_iff {v : Value} {s : String} : textOf v = .ok s ↔ v = .string s := by
  cases v <;> simp [textOf]

lemma emitterOf_eq_ok_iff {v : Value} {e : Option String} :
    emitterOf v = .ok e ↔ EmitterStands (some v) e := by
  constructor
  · intro h
    cases v with
    | null =>
        obtain rfl := Except.ok.inj h
        exact .null
    | string s =>
        obtain rfl := Except.ok.inj h
        exact .text s
    | _ => cases h
  · rintro (_ | _ | s) <;> rfl

/-- What is read for a part: the text of a name or a pattern, or the emitter if there is one. -/
def decode : Field → Value → Except ShapeError (Option String)
  | .name, v | .pattern, v => (textOf v).map some
  | .emitter, v => emitterOf v

namespace Parts

variable {p q : Parts} {f : Field} {v : Value}

/-- What has been read for a part. -/
def part (p : Parts) : Field → Option (Option String)
  | .name => p.name.map some
  | .pattern => p.pattern.map some
  | .emitter => p.emitter

lemma part_none (f : Field) : Parts.none.part f = .none := by
  cases f <;> rfl

lemma has_eq_isSome (p : Parts) (f : Field) : p.has f = (p.part f).isSome := by
  cases f <;> simp [has, part]

/-- Parts are known by what has been read for each. -/
lemma eq_of_part (h : ∀ f, p.part f = q.part f) : p = q := by
  obtain ⟨name, pattern, emitter⟩ := p
  obtain ⟨name', pattern', emitter'⟩ := q
  have hname : name.map some = name'.map some := h .name
  have hpattern : pattern.map some = pattern'.map some := h .pattern
  obtain rfl : emitter = emitter' := h .emitter
  obtain rfl := Option.map_injective (fun _ _ => Option.some.inj) hname
  obtain rfl := Option.map_injective (fun _ _ => Option.some.inj) hpattern
  rfl

/-- Where something is read for a part, it is read into the part, and the others stay. -/
lemma exists_read {a : Option String} (p : Parts) (h : decode f v = .ok a) :
    ∃ q, p.read f v = .ok q ∧ q.part f = some a ∧ ∀ g ≠ f, q.part g = p.part g := by
  cases f with
  | name =>
      obtain ⟨s, hs, rfl⟩ := map_eq_ok_iff.1 h
      refine ⟨⟨s, p.pattern, p.emitter⟩, by rw [read, hs]; rfl, rfl, fun g hg => ?_⟩
      cases g <;> first | rfl | exact absurd rfl hg
  | pattern =>
      obtain ⟨s, hs, rfl⟩ := map_eq_ok_iff.1 h
      refine ⟨⟨p.name, s, p.emitter⟩, by rw [read, hs]; rfl, rfl, fun g hg => ?_⟩
      cases g <;> first | rfl | exact absurd rfl hg
  | emitter =>
      have hs : emitterOf v = .ok a := h
      refine ⟨⟨p.name, p.pattern, some a⟩, by rw [read, hs]; rfl, rfl, fun g hg => ?_⟩
      cases g <;> first | rfl | exact absurd rfl hg

/-- A part that is read is read as something. -/
lemma exists_decode (h : p.read f v = .ok q) : ∃ a, decode f v = .ok a := by
  cases f with
  | name =>
      obtain ⟨s, hs, -⟩ := map_eq_ok_iff.1 h
      exact ⟨some s, map_eq_ok_iff.2 ⟨s, hs, rfl⟩⟩
  | pattern =>
      obtain ⟨s, hs, -⟩ := map_eq_ok_iff.1 h
      exact ⟨some s, map_eq_ok_iff.2 ⟨s, hs, rfl⟩⟩
  | emitter =>
      obtain ⟨a, ha, -⟩ := map_eq_ok_iff.1 h
      exact ⟨a, ha⟩

end Parts

/-! ### The members of an object -/

lemma Field.key_injective {f g : Field} (h : f.key = g.key) : f = g := by
  cases f <;> cases g <;> simp_all [Field.key]

lemma Field.key_of_ofKey? {key : String} {f : Field} (h : Field.ofKey? key = some f) :
    f.key = key := by
  simpa using List.find?_some h

lemma Field.key_ne_of_ofKey? {key : String} (h : Field.ofKey? key = none) (f : Field) :
    key ≠ f.key := by
  have hall := List.find?_eq_none.1 h f (by cases f <;> simp)
  rintro rfl
  simp at hall

/-- What becomes of a part when the first member of its key is, if there is one, the given one: what
has been read stays. -/
def becomes (f : Field) : Option (Option String) → Option Value →
    Except ShapeError (Option (Option String))
  | some a, _ => .ok (some a)
  | none, none => .ok none
  | none, some v => (decode f v).map some

/-- Reading the members keeps each part that has been read and takes each other one from the first
member of its key. -/
lemma readMembers_eq_ok_iff {p q : Parts} {members : List (String × Value)} :
    readMembers p members = .ok q ↔
      ∀ f : Field, becomes f (p.part f) (Entries.get? f.key members) = .ok (q.part f) := by
  induction members generalizing p with
  | nil =>
      have hstays : ∀ f : Field, becomes f (p.part f) none = .ok (p.part f) := by
        intro f
        cases p.part f <;> rfl
      simp only [readMembers, Entries.get?_nil, hstays, Except.ok.injEq]
      exact ⟨fun h f => by rw [h], Parts.eq_of_part⟩
  | cons member rest ih =>
      obtain ⟨key, v⟩ := member
      cases hfield : Field.ofKey? key with
      | none =>
          have hget : ∀ f : Field, Entries.get? f.key ((key, v) :: rest) =
              Entries.get? f.key rest := fun f => if_neg (Field.key_ne_of_ofKey? hfield f)
          simp only [readMembers, hfield, ih, hget]
      | some field =>
          obtain rfl := Field.key_of_ofKey? hfield
          have hself : Entries.get? field.key ((field.key, v) :: rest) = some v := if_pos rfl
          have hother : ∀ f ≠ field, Entries.get? f.key ((field.key, v) :: rest) =
              Entries.get? f.key rest :=
            fun f hf => if_neg fun hkey => hf (Field.key_injective hkey.symm)
          cases hpart : p.part field with
          | some a =>
              have hhas : p.has field = true := by rw [Parts.has_eq_isSome, hpart]; rfl
              simp only [readMembers, hfield, hhas, if_true, ih]
              refine forall_congr' fun f => ?_
              by_cases hf : f = field
              · subst hf
                rw [hpart]
                rfl
              · rw [hother f hf]
          | none =>
              have hhas : p.has field = false := by rw [Parts.has_eq_isSome, hpart]; rfl
              simp only [readMembers, hfield, hhas, Bool.false_eq_true, if_false]
              rw [bind_eq_ok_iff]
              constructor
              · rintro ⟨p₁, hread, hrest⟩ f
                obtain ⟨a, ha⟩ := Parts.exists_decode hread
                obtain ⟨p₂, hread₂, hpart₂, hparts₂⟩ := Parts.exists_read p ha
                obtain rfl := Except.ok.inj (hread₂.symm.trans hread)
                have hf := ih.1 hrest f
                by_cases heq : f = field
                · subst heq
                  rw [hpart₂] at hf
                  rw [hpart, hself, becomes, ha]
                  exact hf
                · rw [hother f heq, ← hparts₂ f heq]
                  exact hf
              · intro h
                have hmember := h field
                rw [hpart, hself, becomes, map_eq_ok_iff] at hmember
                obtain ⟨a, ha, hq⟩ := hmember
                obtain ⟨p₁, hread, hpart₁, hparts₁⟩ := Parts.exists_read p ha
                refine ⟨p₁, hread, ih.2 fun f => ?_⟩
                by_cases heq : f = field
                · subst heq
                  rw [hpart₁, ← hq]
                  rfl
                · rw [hparts₁ f heq, ← hother f heq]
                  exact h f

/-! ### Values -/

/-- A name or a pattern is the string of its member. -/
lemma becomes_text_iff {f : Field} (hf : f ≠ .emitter) {member : Option Value} {s : String} :
    becomes f none member = .ok (some (some s)) ↔ member = some (.string s) := by
  have hdecode : ∀ v, decode f v = (textOf v).map some := by
    intro v
    cases f <;> first | rfl | exact absurd rfl hf
  cases member with
  | none => simp [becomes]
  | some v => simp [becomes, hdecode, map_eq_ok_iff, textOf_eq_ok_iff]

/-- An emitter is what its member stands for, or none if there is no member. -/
lemma becomes_emitter_iff {member : Option Value} {e : Option String} :
    (∃ a, becomes .emitter none member = .ok a ∧ a.getD none = e) ↔ EmitterStands member e := by
  cases member with
  | none =>
      constructor
      · rintro ⟨a, ha, rfl⟩
        obtain rfl := Except.ok.inj ha
        exact .absent
      · rintro ⟨⟩
        exact ⟨none, rfl, rfl⟩
  | some v =>
      rw [← emitterOf_eq_ok_iff]
      simp [becomes, decode, map_eq_ok_iff]

/-- The values that are held for the parts make the rule. -/
structure Makes (held : Field → Option Value) (r : Rule) : Prop where
  name_eq : held .name = some (.string r.name)
  pattern_eq : held .pattern = some (.string r.pattern)
  emitter_stands : EmitterStands (held .emitter) r.emitter

/-- The parts are what is read from the values that are held for them. -/
def Parts.From (p : Parts) (held : Field → Option Value) : Prop :=
  ∀ f, becomes f Option.none (held f) = .ok (p.part f)

/-- A rule is made of what is held exactly if its parts are read from it. -/
lemma makes_iff {held : Field → Option Value} {r : Rule} :
    Makes held r ↔ ∃ p : Parts, p.From held ∧ p.complete = .ok r := by
  constructor
  · rintro ⟨name_eq, pattern_eq, emitter_stands⟩
    obtain ⟨name, pattern, emitter⟩ := r
    obtain ⟨emitter, hemitter, rfl⟩ := becomes_emitter_iff.2 emitter_stands
    refine ⟨⟨name, pattern, emitter⟩, fun f => ?_, rfl⟩
    cases f with
    | name => exact (becomes_text_iff (by simp)).2 name_eq
    | pattern => exact (becomes_text_iff (by simp)).2 pattern_eq
    | emitter => exact hemitter
  · rintro ⟨⟨name?, pattern?, emitter⟩, hparts, hcomplete⟩
    cases name? with
    | none => cases hcomplete
    | some name =>
        cases pattern? with
        | none => cases hcomplete
        | some pattern =>
            obtain rfl := Except.ok.inj hcomplete
            exact ⟨(becomes_text_iff (by simp)).1 (hparts .name),
              (becomes_text_iff (by simp)).1 (hparts .pattern),
              becomes_emitter_iff.1 ⟨emitter, hparts .emitter, rfl⟩⟩

/-- Parts that are read from what is held come to the rule that it makes. -/
lemma Parts.From.complete_eq_ok_iff {p : Parts} {held : Field → Option Value} {r : Rule}
    (h : p.From held) : p.complete = .ok r ↔ Makes held r := by
  rw [makes_iff]
  constructor
  · exact fun hcomplete => ⟨p, h, hcomplete⟩
  · rintro ⟨q, hq, hcomplete⟩
    have hpart : ∀ f, p.part f = q.part f := fun f => Except.ok.inj ((h f).symm.trans (hq f))
    rwa [Parts.eq_of_part hpart]

lemma stands_object_iff {members : List (String × Value)} {r : Rule} :
    Stands (.object members) r ↔ Makes (fun f => Entries.get? f.key members) r := by
  constructor
  · rintro ⟨name_eq, pattern_eq, emitter_stands⟩
    exact ⟨name_eq, pattern_eq, emitter_stands⟩
  · exact fun h => .object h.name_eq h.pattern_eq h.emitter_stands

/-- The parts of an object make a rule exactly if it stands for the rule. -/
lemma ofValue_object_iff {members : List (String × Value)} {r : Rule} :
    ofValue (.object members) = .ok r ↔ Stands (.object members) r := by
  simp only [ofValue, bind_eq_ok_iff, stands_object_iff, makes_iff, readMembers_eq_ok_iff,
    Parts.part_none, Parts.From]

lemma stands_array_iff {items : List Value} {r : Rule} :
    Stands (.array items) r ↔ ∃ third : Option Value,
      items = .string r.name :: .string r.pattern :: third.toList ∧
        EmitterStands third r.emitter := by
  constructor
  · intro h
    cases h with
    | array emitter_stands => exact ⟨_, rfl, emitter_stands⟩
  · obtain ⟨name, pattern, emitter⟩ := r
    rintro ⟨third, rfl, emitter_stands⟩
    exact .array emitter_stands

/-- The items of an array make a rule exactly if the array stands for the rule. -/
lemma ofValue_array_iff {items : List Value} {r : Rule} :
    ofValue (.array items) = .ok r ↔ Stands (.array items) r := by
  rw [stands_array_iff, ofValue]
  obtain ⟨name, pattern, emitter⟩ := r
  rcases items with _ | ⟨x, _ | ⟨y, _ | ⟨z, rest⟩⟩⟩
  · simp [ofItems]
  · simp [ofItems, bind_eq_ok_iff]
  · constructor
    · intro h
      obtain ⟨_, hx, h⟩ := bind_eq_ok_iff.1 h
      obtain ⟨_, hy, h⟩ := bind_eq_ok_iff.1 h
      cases h
      rw [textOf_eq_ok_iff] at hx hy
      exact ⟨none, by simp [hx, hy], .absent⟩
    · rintro ⟨third, hitems, emitter_stands⟩
      cases emitter_stands with
      | absent =>
          simp only [Option.toList_none, List.cons.injEq, and_true] at hitems
          obtain ⟨rfl, rfl⟩ := hitems
          rfl
      | null => simp at hitems
      | text => simp at hitems
  · constructor
    · intro h
      obtain ⟨_, hx, h⟩ := bind_eq_ok_iff.1 h
      obtain ⟨_, hy, h⟩ := bind_eq_ok_iff.1 h
      obtain ⟨_, hz, h⟩ := bind_eq_ok_iff.1 h
      split at h
      · next hrest =>
        cases h
        rw [textOf_eq_ok_iff] at hx hy
        rw [emitterOf_eq_ok_iff] at hz
        exact ⟨some z, by simp [hx, hy, List.isEmpty_iff.1 hrest], hz⟩
      · cases h
    · rintro ⟨third, hitems, emitter_stands⟩
      cases emitter_stands with
      | absent => simp at hitems
      | null =>
          simp only [Option.toList_some, List.cons.injEq] at hitems
          obtain ⟨rfl, rfl, rfl, rfl⟩ := hitems
          rfl
      | text e =>
          simp only [Option.toList_some, List.cons.injEq] at hitems
          obtain ⟨rfl, rfl, rfl, rfl⟩ := hitems
          rfl

/-- **Rules are read from what stands for them**, and from nothing else. -/
theorem ofValue_eq_ok_iff {v : Value} {r : Rule} : ofValue v = .ok r ↔ Stands v r := by
  cases v with
  | array items => exact ofValue_array_iff
  | object members => exact ofValue_object_iff
  | _ => exact iff_of_false (fun h => by cases h) (fun h => by cases h)

end Rule

/-! ### Tables -/

/-- **Tables are read from arrays of what stands for their rules**, and from nothing else. -/
theorem RuleTable.ofValue_eq_ok_iff {v : Value} {t : RuleTable} :
    RuleTable.ofValue v = .ok t ↔
      ∃ items, v = .array items ∧ List.Forall₂ Rule.Stands items t.rules := by
  cases v with
  | array items =>
      obtain ⟨rules⟩ := t
      simp only [RuleTable.ofValue, map_eq_ok_iff, mapError_eq_ok_iff, mapM_eq_ok_iff,
        Rule.ofValue_eq_ok_iff, RuleTable.mk.injEq, exists_eq_right, Value.array.injEq,
        exists_eq_left']
  | _ => exact iff_of_false (fun h => by cases h) (fun ⟨_, h, _⟩ => by cases h)

end RuleScript
