import RuleScript.Proofs.Json.Merged
import RuleScript.Proofs.Rule.Shapes

/-!
What is held for the parts of a rule in a value as it is written, repeated keys and all.

* `Entries.get?_merge`: once repeated keys are merged, the last entry of a key counts;
* `Rule.stands_array_merged_iff`, `Rule.stands_object_merged_iff`: which rule a written array or
  object stands for, told from the items at the places of the parts and from the last members of
  their keys;
* `Rule.Parts.From.read`: reading one more part where its value has come.
-/

namespace RuleScript

open RuleScript.Json (Value mergedItems mergedMembers)

namespace Entries

variable {κ α β : Type} [DecidableEq κ] {entries : List (κ × α)} {key : κ} {value : α}

/-- Of the entries with one key the last counts once they are merged. -/
lemma get?_merge (key : κ) (entries : List (κ × α)) :
    get? key (merge entries) = get? key entries.reverse := by
  induction entries using List.reverseRecOn with
  | nil => rfl
  | append_singleton entries entry ih =>
      obtain ⟨k, v⟩ := entry
      rw [merge_concat, List.reverse_append, List.reverse_singleton, List.singleton_append,
        get?_cons]
      by_cases hk : k = key
      · rw [if_pos hk, hk, get?_set_self]
      · rw [if_neg hk, get?_set_of_ne (Ne.symm hk), ih]

lemma get?_map (f : α → β) (key : κ) (entries : List (κ × α)) :
    get? key (entries.map fun entry => (entry.1, f entry.2)) = (get? key entries).map f := by
  induction entries with
  | nil => rfl
  | cons entry entries ih =>
      obtain ⟨k, v⟩ := entry
      rw [List.map_cons, get?_cons, get?_cons, ih]
      split <;> rfl

lemma mem_keys_of_get? (h : get? key entries = some value) : key ∈ entries.map Prod.fst := by
  induction entries with
  | nil => cases h
  | cons entry entries ih =>
      obtain ⟨k, v⟩ := entry
      rw [get?_cons] at h
      split at h
      · next hk => simp [hk]
      · exact List.mem_cons_of_mem _ (ih h)

/-- A key that comes once has the value with which it comes. -/
lemma get?_of_mem (hmem : (key, value) ∈ entries) (hcount : (entries.map Prod.fst).count key ≤ 1) :
    get? key entries = some value := by
  induction entries with
  | nil => cases hmem
  | cons entry entries ih =>
      obtain ⟨k, v⟩ := entry
      rw [List.map_cons, List.count_cons] at hcount
      rw [get?_cons]
      by_cases hk : k = key
      · subst hk
        have hlater : k ∉ entries.map Prod.fst := by
          rw [← List.count_eq_zero]
          simpa using hcount
        obtain hself | hlate := List.mem_cons.1 hmem
        · obtain ⟨-, rfl⟩ := Prod.mk.inj hself
          exact if_pos rfl
        · exact absurd (List.mem_map_of_mem hlate) hlater
      · rw [if_neg hk]
        refine ih ?_ (Nat.le_trans (Nat.le_add_right _ _) hcount)
        obtain hself | hlate := List.mem_cons.1 hmem
        · exact absurd (Prod.mk.inj hself).1.symm hk
        · exact hlate

end Entries

namespace Rule

variable {held held' : Field → Option Value} {r : Rule} {f : Field} {v : Value}

/-! ### Merged values -/

/-- What is read for a part does not depend on repeated keys. -/
lemma decode_merged (f : Field) (v : Value) : decode f v.merged = decode f v := by
  cases f <;> cases v <;> simp only [Value.merged] <;> rfl

lemma emitterStands_merged_iff {third : Option Value} {emitter : Option String} :
    EmitterStands (third.map Value.merged) emitter ↔ EmitterStands third emitter := by
  cases third with
  | none => rfl
  | some v =>
      have hdecode := decode_merged .emitter v
      rw [Option.map_some, ← emitterOf_eq_ok_iff, ← emitterOf_eq_ok_iff]
      exact Eq.congr_left hdecode

lemma string_merged_iff {member : Option Value} {s : String} :
    member.map Value.merged = some (.string s) ↔ member = some (.string s) := by
  cases member with
  | none => simp
  | some v => cases v <;> simp [Value.merged]

lemma makes_merged_iff (held : Field → Option Value) (r : Rule) :
    Makes (fun f => (held f).map Value.merged) r ↔ Makes held r := by
  constructor
  · rintro ⟨name_eq, pattern_eq, emitter_stands⟩
    exact ⟨string_merged_iff.1 name_eq, string_merged_iff.1 pattern_eq,
      emitterStands_merged_iff.1 emitter_stands⟩
  · rintro ⟨name_eq, pattern_eq, emitter_stands⟩
    exact ⟨string_merged_iff.2 name_eq, string_merged_iff.2 pattern_eq,
      emitterStands_merged_iff.2 emitter_stands⟩

/-! ### Written values -/

/-- The place of a part in an array. -/
def Field.index : Field → ℕ
  | .name => 0
  | .pattern => 1
  | .emitter => 2

lemma Field.index_injective {f g : Field} (h : f.index = g.index) : f = g := by
  cases f <;> cases g <;> first | rfl | cases h

/-- An array stands for a rule if it has three items at most and the items at the places of the
parts make the rule. -/
lemma stands_array_iff_makes {items : List Value} :
    Stands (.array items) r ↔ items.length ≤ 3 ∧ Makes (fun f => items[f.index]?) r := by
  rw [stands_array_iff]
  constructor
  · rintro ⟨third, rfl, emitter_stands⟩
    cases third with
    | none => exact ⟨by simp, rfl, rfl, emitter_stands⟩
    | some v => exact ⟨by simp, rfl, rfl, emitter_stands⟩
  · rintro ⟨hlength, name_eq, pattern_eq, emitter_stands⟩
    rcases items with _ | ⟨x, _ | ⟨y, rest⟩⟩
    · cases name_eq
    · cases pattern_eq
    · obtain rfl := Option.some.inj name_eq
      obtain rfl := Option.some.inj pattern_eq
      have hrest : rest = rest[0]?.toList := by
        rcases rest with _ | ⟨z, _ | ⟨z', rest⟩⟩
        · rfl
        · rfl
        · simp only [List.length_cons] at hlength
          omega
      refine ⟨rest[0]?, ?_, emitter_stands⟩
      rw [← hrest]

lemma stands_array_merged_iff {items : List Value} :
    Stands (Value.array items).merged r ↔
      items.length ≤ 3 ∧ Makes (fun f => items[f.index]?) r := by
  have hheld := makes_merged_iff (fun f => items[f.index]?) r
  rw [Value.merged, Json.mergedItems_eq_map, stands_array_iff_makes, List.length_map, ← hheld]
  simp only [List.getElem?_map]

/-- Of the members of an object with the key of a part the last makes the rule. -/
lemma stands_object_merged_iff {members : List (String × Value)} :
    Stands (Value.object members).merged r ↔
      Makes (fun f => Entries.get? f.key members.reverse) r := by
  have hheld := makes_merged_iff (fun f => Entries.get? f.key members.reverse) r
  rw [Value.merged, Json.mergedMembers_eq_map, stands_object_iff, ← hheld]
  simp only [Entries.get?_merge, ← List.map_reverse, Entries.get?_map]

/-! ### One part more -/

/-- What makes a rule can be read for its part. -/
lemma Makes.exists_decode (h : Makes held r) (hv : held f = some v) : ∃ a, decode f v = .ok a := by
  cases f with
  | name =>
      obtain rfl := Option.some.inj (hv.symm.trans h.name_eq)
      exact ⟨_, rfl⟩
  | pattern =>
      obtain rfl := Option.some.inj (hv.symm.trans h.pattern_eq)
      exact ⟨_, rfl⟩
  | emitter =>
      have hemitter := h.emitter_stands
      rw [hv, ← emitterOf_eq_ok_iff] at hemitter
      exact ⟨_, hemitter⟩

namespace Parts

variable {p q : Parts}

/-- No part is read where nothing is held. -/
lemma none_from : Parts.none.From fun _ => Option.none := fun f => by
  rw [part_none]
  rfl

/-- A part that has been read is held. -/
lemma From.exists_held (h : p.From held) (hhas : p.has f = true) : ∃ v, held f = some v := by
  cases hf : held f with
  | some v => exact ⟨v, rfl⟩
  | none =>
      have hpart : p.part f = Option.none := by
        have hf' := h f
        rw [hf] at hf'
        exact (Except.ok.inj hf').symm
      rw [has_eq_isSome, hpart] at hhas
      cases hhas

/-- One more part is read where its value has come. -/
lemma From.read (h : p.From held) (hread : p.read f v = .ok q) (hself : held' f = some v)
    (hother : ∀ g ≠ f, held' g = held g) : q.From held' := by
  obtain ⟨a, ha⟩ := exists_decode hread
  obtain ⟨q', hq', hpart, hparts⟩ := exists_read p ha
  obtain rfl := Except.ok.inj (hq'.symm.trans hread)
  intro g
  by_cases hg : g = f
  · subst hg
    rw [hself, hpart, becomes, ha]
    rfl
  · rw [hother g hg, hparts g hg]
    exact h g

end Parts

end Rule

end RuleScript
