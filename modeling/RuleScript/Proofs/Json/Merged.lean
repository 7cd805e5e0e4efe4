import Mathlib.Algebra.GroupWithZero.Nat
import Mathlib.Algebra.Order.BigOperators.Group.List
import Mathlib.Algebra.Order.Group.Nat
import Mathlib.Data.List.Induction
import RuleScript.Proofs.Json.Tokens

/-!
What is lost when repeated keys are merged.

* `Value.ind`: the induction principle of values;
* `Value.KeysDistinct`: the values in which no object repeats a key; merging changes nothing in them
  (`merged_of_keysDistinct`);
* `colons`: how many members a value is written with, counted on its tokens; merging never adds one
  (`colons_merged_le`), and takes one away wherever a key is repeated (`colons_merged_lt`).
-/

namespace RuleScript

/-! ### Entries -/

namespace Entries

variable {κ α : Type}

/-- How much some entries weigh: one for each key, and what its value weighs. -/
def weigh (weight : α → ℕ) (entries : List (κ × α)) : ℕ :=
  (entries.map fun entry => 1 + weight entry.2).sum

lemma weigh_append (weight : α → ℕ) (first second : List (κ × α)) :
    weigh weight (first ++ second) = weigh weight first + weigh weight second := by
  rw [weigh, List.map_append, List.sum_append, weigh, weigh]

variable [DecidableEq κ] {entries : List (κ × α)} {key : κ} {value : α}

lemma merge_concat (entries : List (κ × α)) (key : κ) (value : α) :
    merge (entries ++ [(key, value)]) = set key value (merge entries) := by
  rw [merge, List.foldl_append]
  rfl

lemma set_of_notMem (h : key ∉ entries.map Prod.fst) :
    set key value entries = entries ++ [(key, value)] := by
  induction entries with
  | nil => rfl
  | cons entry entries ih =>
      obtain ⟨k, v⟩ := entry
      rw [List.map_cons, List.mem_cons, not_or] at h
      rw [set, if_neg (Ne.symm h.1), ih h.2, List.cons_append]

/-- Entries with different keys are merged as they stand. -/
lemma merge_of_nodup (h : (entries.map Prod.fst).Nodup) : merge entries = entries := by
  induction entries using List.reverseRecOn with
  | nil => rfl
  | append_singleton entries entry ih =>
      obtain ⟨k, v⟩ := entry
      rw [List.map_append, List.nodup_append] at h
      obtain ⟨hentries, -, hdisjoint⟩ := h
      have hnew : k ∉ entries.map Prod.fst := fun hk => hdisjoint k hk k (by simp) rfl
      rw [merge_concat, ih hentries, set_of_notMem hnew]

lemma mem_keys_set_iff {other : κ} :
    other ∈ (set key value entries).map Prod.fst ↔
      other = key ∨ other ∈ entries.map Prod.fst := by
  induction entries with
  | nil => simp [set]
  | cons entry entries ih =>
      obtain ⟨k, v⟩ := entry
      by_cases h : k = key
      · simp [set, h]
      · rw [set, if_neg h, List.map_cons, List.map_cons, List.mem_cons, ih, List.mem_cons,
          or_left_comm]

lemma mem_keys_merge_iff {other : κ} :
    other ∈ (merge entries).map Prod.fst ↔ other ∈ entries.map Prod.fst := by
  induction entries using List.reverseRecOn with
  | nil => rfl
  | append_singleton entries entry ih =>
      obtain ⟨k, v⟩ := entry
      rw [merge_concat, mem_keys_set_iff, ih, List.map_append, List.mem_append, or_comm]
      simp

variable (weight : α → ℕ)

/-- A new key adds its weight. -/
lemma weigh_set_of_notMem (h : key ∉ entries.map Prod.fst) :
    weigh weight (set key value entries) = weigh weight entries + (1 + weight value) := by
  rw [set_of_notMem h, weigh_append]
  rfl

/-- A key that is there already adds less, as its old value goes. -/
lemma weigh_set_of_mem (value : α) (h : key ∈ entries.map Prod.fst) :
    weigh weight (set key value entries) < weigh weight entries + (1 + weight value) := by
  induction entries with
  | nil => simp at h
  | cons entry entries ih =>
      obtain ⟨k, v⟩ := entry
      by_cases hk : k = key
      · rw [set, if_pos hk]
        simp only [weigh, List.map_cons, List.sum_cons]
        omega
      · have hlater : key ∈ entries.map Prod.fst := by
          rcases List.mem_cons.1 h with heq | hmem
          · exact absurd heq.symm hk
          · exact hmem
        have hih := ih hlater
        rw [set, if_neg hk]
        simp only [weigh, List.map_cons, List.sum_cons] at hih ⊢
        omega

/-- Merging adds no weight. -/
lemma weigh_merge_le (entries : List (κ × α)) :
    weigh weight (merge entries) ≤ weigh weight entries := by
  induction entries using List.reverseRecOn with
  | nil => exact Nat.le_refl _
  | append_singleton entries entry ih =>
      obtain ⟨k, v⟩ := entry
      have hsingle : weigh weight [(k, v)] = 1 + weight v := rfl
      rw [merge_concat, weigh_append, hsingle]
      by_cases hk : k ∈ (merge entries).map Prod.fst
      · have hset := weigh_set_of_mem weight v hk
        omega
      · rw [weigh_set_of_notMem weight hk]
        omega

/-- Merging takes weight away where a key is repeated. -/
lemma weigh_merge_lt (h : ¬ (entries.map Prod.fst).Nodup) :
    weigh weight (merge entries) < weigh weight entries := by
  induction entries using List.reverseRecOn with
  | nil => simp at h
  | append_singleton entries entry ih =>
      obtain ⟨k, v⟩ := entry
      have hsingle : weigh weight [(k, v)] = 1 + weight v := rfl
      have hle := weigh_merge_le weight entries
      rw [merge_concat, weigh_append, hsingle]
      by_cases hk : k ∈ entries.map Prod.fst
      · have hset := weigh_set_of_mem weight v (mem_keys_merge_iff.2 hk)
        omega
      · have hentries : ¬ (entries.map Prod.fst).Nodup := by
          intro hnodup
          refine h ?_
          rw [List.map_append, List.nodup_append]
          refine ⟨hnodup, by simp, ?_⟩
          rintro a ha _ hb rfl
          obtain rfl := List.mem_singleton.1 hb
          exact hk ha
        have hlt := ih hentries
        rw [weigh_set_of_notMem weight (mem_keys_merge_iff.not.2 hk)]
        omega

end Entries

namespace Json

/-! ### Values -/

/-- The induction principle of values: a property holds of all of them once it holds of scalars and is
inherited by arrays from their items and by objects from their members. -/
@[elab_as_elim]
theorem Value.ind {P : Value → Prop} (null : P .null) (bool : ∀ b, P (.bool b))
    (number : ∀ n, P (.number n)) (string : ∀ s, P (.string s))
    (array : ∀ items, (∀ v ∈ items, P v) → P (.array items))
    (object : ∀ members, (∀ m ∈ members, P m.2) → P (.object members)) (v : Value) : P v :=
  @Value.rec P (fun items => ∀ v ∈ items, P v) (fun members => ∀ m ∈ members, P m.2)
    (fun m => P m.2) null bool number string array object (by simp)
    (fun _ _ hv hrest => List.forall_mem_cons.2 ⟨hv, hrest⟩) (by simp)
    (fun _ _ hm hrest => List.forall_mem_cons.2 ⟨hm, hrest⟩) (fun _ _ hv => hv) v

lemma mergedItems_eq_map (items : List Value) : mergedItems items = items.map Value.merged := by
  induction items with
  | nil => rfl
  | cons v items ih => rw [mergedItems, ih, List.map_cons]

lemma mergedMembers_eq_map (members : List (String × Value)) :
    mergedMembers members = members.map fun m => (m.1, m.2.merged) := by
  induction members with
  | nil => rfl
  | cons m members ih =>
      obtain ⟨key, v⟩ := m
      rw [mergedMembers, ih, List.map_cons]

lemma keys_mergedMembers (members : List (String × Value)) :
    (mergedMembers members).map Prod.fst = members.map Prod.fst := by
  rw [mergedMembers_eq_map, List.map_map]
  rfl

/-- No object in a value repeats a key. -/
inductive Value.KeysDistinct : Value → Prop
  | null : KeysDistinct .null
  | bool (b : Bool) : KeysDistinct (.bool b)
  | number (n : Number) : KeysDistinct (.number n)
  | string (s : String) : KeysDistinct (.string s)
  | array {items : List Value} (inside : ∀ v ∈ items, KeysDistinct v) :
    KeysDistinct (.array items)
  | object {members : List (String × Value)} (nodup : (members.map Prod.fst).Nodup)
      (inside : ∀ m ∈ members, KeysDistinct m.2) : KeysDistinct (.object members)

/-- Merging changes nothing where no key is repeated. -/
theorem merged_of_keysDistinct {v : Value} (h : v.KeysDistinct) : v.merged = v := by
  induction v using Value.ind with
  | null => simp only [Value.merged]
  | bool b => simp only [Value.merged]
  | number n => simp only [Value.merged]
  | string s => simp only [Value.merged]
  | array items ih =>
      cases h with
      | array inside =>
          have hitems : items.map Value.merged = items :=
            (List.map_congr_left fun v hv => ih v hv (inside v hv)).trans (List.map_id items)
          rw [Value.merged, mergedItems_eq_map, hitems]
  | object members ih =>
      cases h with
      | object nodup inside =>
          have hmembers : mergedMembers members = members := by
            rw [mergedMembers_eq_map]
            refine (List.map_congr_left fun m hm => ?_).trans (List.map_id members)
            rw [ih m hm (inside m hm)]
            rfl
          rw [Value.merged, hmembers, Entries.merge_of_nodup nodup]

/-! ### How many members are written -/

/-- How many of some tokens are colons. -/
def colons (tokens : List Token) : ℕ :=
  tokens.countP fun
    | .mark b => b = Byte.colon
    | .scalar _ => false

lemma colons_append (first second : List Token) :
    colons (first ++ second) = colons first + colons second := List.countP_append

lemma colons_joined (parts : List (List Token)) :
    colons (joined parts) = (parts.map colons).sum := by
  have hlater : ∀ parts : List (List Token),
      colons (parts.flatMap (.mark Byte.comma :: ·)) = (parts.map colons).sum := by
    intro parts
    induction parts with
    | nil => rfl
    | cons part parts ih =>
        have hpart : colons (.mark Byte.comma :: part) = colons part := rfl
        rw [List.flatMap_cons, colons_append, hpart, ih, List.map_cons, List.sum_cons]
  cases parts with
  | nil => rfl
  | cons first parts => rw [joined_cons, colons_append, hlater, List.map_cons, List.sum_cons]

/-- Between marks of its own, a value is written with the colons of its parts. -/
lemma colons_enclosed {opening closing : UInt8} (ho : opening ≠ Byte.colon)
    (hc : closing ≠ Byte.colon) (parts : List (List Token)) :
    colons (.mark opening :: (joined parts ++ [.mark closing])) = (parts.map colons).sum := by
  have hopen : colons [.mark opening] = 0 := by simp [colons, ho]
  have hclose : colons [.mark closing] = 0 := by simp [colons, hc]
  rw [← List.singleton_append, colons_append, colons_append, colons_joined, hopen, hclose,
    Nat.zero_add, Nat.add_zero]

lemma colons_array (items : List Value) :
    colons (Value.array items).tokens = (items.map fun v => colons v.tokens).sum := by
  rw [Value.tokens, colons_enclosed (by decide) (by decide), tokensOfItems_eq_map, List.map_map]
  rfl

lemma colons_object (members : List (String × Value)) :
    colons (Value.object members).tokens = Entries.weigh (fun v => colons v.tokens) members := by
  have hmember : ∀ (key : String) (v : Value),
      colons (.scalar (.string key) :: .mark Byte.colon :: v.tokens) = 1 + colons v.tokens := by
    intro key v
    simp [colons, Nat.add_comm]
  have hparts : (tokensOfMembers members).map colons =
      members.map fun m => 1 + colons m.2.tokens := by
    induction members with
    | nil => rfl
    | cons m members ih =>
        obtain ⟨key, v⟩ := m
        rw [tokensOfMembers, List.map_cons, ih, hmember, List.map_cons]
  rw [Value.tokens, colons_enclosed (by decide) (by decide), hparts, Entries.weigh]

/-- Merging adds no member. -/
lemma colons_merged_le (v : Value) : colons v.merged.tokens ≤ colons v.tokens := by
  induction v using Value.ind with
  | null => simp only [Value.merged, le_refl]
  | bool b => simp only [Value.merged, le_refl]
  | number n => simp only [Value.merged, le_refl]
  | string s => simp only [Value.merged, le_refl]
  | array items ih =>
      rw [Value.merged, mergedItems_eq_map, colons_array, colons_array, List.map_map]
      exact List.sum_le_sum ih
  | object members ih =>
      calc colons (Value.object members).merged.tokens
          = Entries.weigh (fun v => colons v.tokens) (Entries.merge (mergedMembers members)) := by
            rw [Value.merged, colons_object]
        _ ≤ Entries.weigh (fun v => colons v.tokens) (mergedMembers members) :=
            Entries.weigh_merge_le _ _
        _ = (members.map fun m => 1 + colons m.2.merged.tokens).sum := by
            rw [Entries.weigh, mergedMembers_eq_map, List.map_map]
            rfl
        _ ≤ (members.map fun m => 1 + colons m.2.tokens).sum :=
            List.sum_le_sum fun m hm => Nat.add_le_add_left (ih m hm) 1
        _ = colons (Value.object members).tokens := (colons_object members).symm

/-- Merging takes a member away where a key is repeated. -/
theorem colons_merged_lt {v : Value} (h : ¬ v.KeysDistinct) :
    colons v.merged.tokens < colons v.tokens := by
  induction v using Value.ind with
  | null => exact absurd .null h
  | bool b => exact absurd (.bool b) h
  | number n => exact absurd (.number n) h
  | string s => exact absurd (.string s) h
  | array items ih =>
      have hinside : ∃ v ∈ items, ¬ v.KeysDistinct := by
        by_contra hall
        exact h (.array (by simpa using hall))
      obtain ⟨v, hv, hnot⟩ := hinside
      rw [Value.merged, mergedItems_eq_map, colons_array, colons_array, List.map_map]
      exact List.sum_lt_sum _ _ (fun w _ => colons_merged_le w) ⟨v, hv, ih v hv hnot⟩
  | object members ih =>
      have hmerged : colons (Value.object members).merged.tokens =
          Entries.weigh (fun v => colons v.tokens) (Entries.merge (mergedMembers members)) := by
        rw [Value.merged, colons_object]
      have hmembers : Entries.weigh (fun v => colons v.tokens) (mergedMembers members) =
          (members.map fun m => 1 + colons m.2.merged.tokens).sum := by
        rw [Entries.weigh, mergedMembers_eq_map, List.map_map]
        rfl
      have hle : ∀ m ∈ members, 1 + colons m.2.merged.tokens ≤ 1 + colons m.2.tokens :=
        fun m _ => Nat.add_le_add_left (colons_merged_le m.2) 1
      by_cases hnodup : (members.map Prod.fst).Nodup
      · have hinside : ∃ m ∈ members, ¬ m.2.KeysDistinct := by
          by_contra hall
          exact h (.object hnodup (by simpa using hall))
        obtain ⟨m, hm, hnot⟩ := hinside
        have hlt : 1 + colons m.2.merged.tokens < 1 + colons m.2.tokens :=
          Nat.add_lt_add_left (ih m hm hnot) 1
        calc colons (Value.object members).merged.tokens
            = Entries.weigh _ (Entries.merge (mergedMembers members)) := hmerged
          _ ≤ Entries.weigh _ (mergedMembers members) := Entries.weigh_merge_le _ _
          _ = (members.map fun m => 1 + colons m.2.merged.tokens).sum := hmembers
          _ < (members.map fun m => 1 + colons m.2.tokens).sum :=
              List.sum_lt_sum _ _ hle ⟨m, hm, hlt⟩
          _ = colons (Value.object members).tokens := (colons_object members).symm
      · rw [← keys_mergedMembers] at hnodup
        calc colons (Value.object members).merged.tokens
            = Entries.weigh _ (Entries.merge (mergedMembers members)) := hmerged
          _ < Entries.weigh _ (mergedMembers members) := Entries.weigh_merge_lt _ hnodup
          _ = (members.map fun m => 1 + colons m.2.merged.tokens).sum := hmembers
          _ ≤ (members.map fun m => 1 + colons m.2.tokens).sum := List.sum_le_sum hle
          _ = colons (Value.object members).tokens := (colons_object members).symm

end Json

end RuleScript
