import RuleScript.Json.Compact
import RuleScript.Proofs.Json.Run

/-!
Compact texts read back, exactly up to the depth that the reader allows.

* `Value.depth`: how many containers stand inside one another in a value;
* `Reads`: wherever a value is waited for, the compact text gives it back, or is too deep, as the
  containers that are open already and the depth of the value come to;
* `reads_null`, `reads_string`, `reads_array`, `reads_object`: null and strings are read so, and
  arrays and objects of values that are;
* `read_compact`: what this means for a whole text.
-/

namespace RuleScript.Json

mutual

/-- How many containers stand inside one another in a value. -/
def Value.depth : Value → ℕ
  | .array items => 1 + depthOfItems items
  | .object members => 1 + depthOfMembers members
  | _ => 0

/-- The depth of the deepest item. -/
def depthOfItems : List Value → ℕ
  | [] => 0
  | v :: rest => max v.depth (depthOfItems rest)

/-- The depth of the deepest member. -/
def depthOfMembers : List (String × Value) → ℕ
  | [] => 0
  | (_, v) :: rest => max v.depth (depthOfMembers rest)

end

open Reader (maxDepth deliver Awaits)

/-- Wherever a value is waited for, the compact text of this one is read back, unless the containers
that are open and those of the value are too many. -/
def Reads (v : Value) : Prop :=
  ∀ (r : Reader) (outer : List Frame), Awaits r outer → outer.length ≤ maxDepth →
    r.run (bytesOf v.compact) =
      if outer.length + v.depth ≤ maxDepth then .ok (deliver v outer) else .error .tooDeep

/-! ### Null and strings -/

lemma reads_null : Reads .null := by
  intro r outer hr houter
  have hopen : r.step Byte.lowerN = .ok ⟨.literal .nullRest .null, outer⟩ :=
    hr.step_eq (by decide) (by decide)
  have hbytes : bytesOf Value.null.compact =
      Byte.lowerN :: [Byte.lowerU, Byte.lowerL, Byte.lowerL] := by
    rw [Value.compact]
    rfl
  have hdepth : Value.null.depth = 0 := by simp only [Value.depth]
  rw [hbytes, hdepth, if_pos (by omega), Reader.run_cons_of_ok hopen]
  rfl

lemma reads_string (s : String) : Reads (.string s) := by
  intro r outer hr houter
  have hopen : r.step Byte.quotationMark = .ok ⟨.string .opened, outer⟩ :=
    hr.step_eq (by decide) (by decide)
  have hdepth : (Value.string s).depth = 0 := by simp only [Value.depth]
  rw [Value.compact, bytesOf_quote, hdepth, if_pos (by omega), Reader.run_cons_of_ok hopen]
  exact Reader.run_string s outer

/-! ### Arrays -/

/-- The items behind the first one, each behind a comma. -/
def laterItems (rest : List Value) : List UInt8 :=
  rest.flatMap fun v => Byte.comma :: bytesOf v.compact

lemma bytesOf_compactItems (v : Value) (rest : List Value) :
    bytesOf (compactItems (v :: rest)) = bytesOf v.compact ++ laterItems rest := by
  induction rest generalizing v with
  | nil => simp [compactItems, laterItems]
  | cons w rest ih =>
      have hcomma : bytesOf "," = [Byte.comma] := rfl
      rw [compactItems, bytesOf_append, bytesOf_append, ih w, hcomma]
      simp [laterItems]

lemma bytesOf_compact_array (items : List Value) : bytesOf (Value.array items).compact =
    Byte.openBracket :: (bytesOf (compactItems items) ++ [Byte.closeBracket]) := by
  rw [Value.compact, bytesOf_append, bytesOf_append]
  rfl

/-- Behind an item, the others are read back and the array is closed, unless one of them is too
deep. -/
lemma run_laterItems {rest : List Value} (hrest : ∀ v ∈ rest, Reads v) (before : List Value)
    {outer : List Frame} (houter : outer.length < maxDepth) :
    Reader.run ⟨.afterItem before, outer⟩ (laterItems rest ++ [Byte.closeBracket]) =
      if outer.length + (1 + depthOfItems rest) ≤ maxDepth
      then .ok (deliver (.array (before.reverse ++ rest)) outer) else .error .tooDeep := by
  induction rest generalizing before with
  | nil =>
      have hclose : Reader.step ⟨.afterItem before, outer⟩ Byte.closeBracket =
          .ok (deliver (.array before.reverse) outer) := rfl
      rw [depthOfItems, if_pos (by omega), List.append_nil]
      exact Reader.run_cons_of_ok hclose []
  | cons v rest ih =>
      have hcomma : Reader.step ⟨.afterItem before, outer⟩ Byte.comma =
          .ok ⟨.nextItem before, outer⟩ := rfl
      have hawaits : Awaits ⟨.nextItem before, outer⟩ (.array before :: outer) := .nextItem
      have hv := hrest v (by simp) _ _ hawaits (Nat.succ_le_of_lt houter)
      have hih := ih (fun w hw => hrest w (by simp [hw])) (v :: before)
      rw [List.length_cons] at hv
      rw [laterItems, List.flatMap_cons, List.cons_append, List.cons_append, List.append_assoc,
        Reader.run_cons_of_ok hcomma, depthOfItems]
      by_cases hdeep : outer.length + 1 + v.depth ≤ maxDepth
      · rw [if_pos hdeep] at hv
        have hiff : outer.length + (1 + depthOfItems rest) ≤ maxDepth ↔
            outer.length + (1 + max v.depth (depthOfItems rest)) ≤ maxDepth := by omega
        have hitems : (v :: before).reverse ++ rest = before.reverse ++ v :: rest := by
          rw [List.reverse_cons, List.append_assoc, List.singleton_append]
        rw [Reader.run_append_of_ok hv]
        refine hih.trans ?_
        rw [hitems]
        exact if_congr hiff rfl rfl
      · rw [if_neg hdeep] at hv
        rw [Reader.run_append_of_error hv, if_neg (by omega)]

lemma reads_array {items : List Value} (hitems : ∀ v ∈ items, Reads v) :
    Reads (.array items) := by
  intro r outer hr houter
  have hopen : r.step Byte.openBracket = Reader.openContainer outer .firstItem :=
    hr.step_eq (by decide) (by decide)
  rw [bytesOf_compact_array, Value.depth]
  by_cases hlt : outer.length < maxDepth
  · rw [Reader.openContainer, if_pos hlt] at hopen
    rw [Reader.run_cons_of_ok hopen]
    cases items with
    | nil =>
        have hclose : Reader.step ⟨.firstItem, outer⟩ Byte.closeBracket =
            .ok (deliver (.array []) outer) := rfl
        rw [depthOfItems, if_pos (by omega)]
        exact Reader.run_cons_of_ok hclose []
    | cons v rest =>
        have hawaits : Awaits ⟨.firstItem, outer⟩ (.array [] :: outer) := .firstItem
        have hv := hitems v (by simp) _ _ hawaits (Nat.succ_le_of_lt hlt)
        have hlater : ∀ w ∈ rest, Reads w := fun w hw => hitems w (by simp [hw])
        have hrest := run_laterItems hlater [v] hlt
        rw [List.length_cons] at hv
        rw [bytesOf_compactItems, List.append_assoc, depthOfItems]
        by_cases hdeep : outer.length + 1 + v.depth ≤ maxDepth
        · rw [if_pos hdeep] at hv
          have hiff : outer.length + (1 + depthOfItems rest) ≤ maxDepth ↔
              outer.length + (1 + max v.depth (depthOfItems rest)) ≤ maxDepth := by omega
          rw [Reader.run_append_of_ok hv]
          refine hrest.trans ?_
          exact if_congr hiff rfl rfl
        · rw [if_neg hdeep] at hv
          rw [Reader.run_append_of_error hv, if_neg (by omega)]
  · rw [Reader.openContainer, if_neg hlt] at hopen
    rw [Reader.run_cons_of_error hopen, if_neg (by omega)]

/-! ### Objects -/

/-- A member: its key, a colon and its value. -/
def compactMember (key : String) (v : Value) : List UInt8 :=
  Byte.quotationMark :: (Reader.unquoted key ++ Byte.colon :: bytesOf v.compact)

/-- The members behind the first one, each behind a comma. -/
def laterMembers (rest : List (String × Value)) : List UInt8 :=
  rest.flatMap fun (key, v) => Byte.comma :: compactMember key v

lemma bytesOf_compactMembers (key : String) (v : Value) (rest : List (String × Value)) :
    bytesOf (compactMembers ((key, v) :: rest)) = compactMember key v ++ laterMembers rest := by
  have hcolon : bytesOf ":" = [Byte.colon] := rfl
  have hmember : ∀ (key : String) (v : Value),
      bytesOf (quote key ++ ":" ++ v.compact) = compactMember key v := by
    intro key v
    rw [bytesOf_append, bytesOf_append, bytesOf_quote, hcolon]
    simp [compactMember, Reader.unquoted]
  induction rest generalizing key v with
  | nil => rw [compactMembers, hmember, laterMembers, List.flatMap_nil, List.append_nil]
  | cons m rest ih =>
      obtain ⟨k, w⟩ := m
      have hcomma : bytesOf "," = [Byte.comma] := rfl
      rw [compactMembers, bytesOf_append, bytesOf_append, hmember, ih, hcomma]
      simp [laterMembers]

lemma bytesOf_compact_object (members : List (String × Value)) :
    bytesOf (Value.object members).compact =
      Byte.openBrace :: (bytesOf (compactMembers members) ++ [Byte.closeBrace]) := by
  have hopen : bytesOf "\x7b" = [Byte.openBrace] := rfl
  have hclose : bytesOf "\x7d" = [Byte.closeBrace] := rfl
  rw [Value.compact, bytesOf_append, bytesOf_append, hopen, hclose]
  rfl

lemma bytesOf_compact_member (key : String) (v : Value) :
    bytesOf (Value.object [(key, v)]).compact =
      Byte.openBrace :: Byte.quotationMark ::
        (Reader.unquoted key ++ Byte.colon :: (bytesOf v.compact ++ [Byte.closeBrace])) := by
  rw [bytesOf_compact_object, bytesOf_compactMembers, compactMember, laterMembers]
  simp

/-- The reader waits for a member of an object, behind the given ones. -/
inductive Reader.AwaitsMember : Reader → List (String × Value) → List Frame → Prop
  | first {outer : List Frame} : AwaitsMember ⟨.firstKey, outer⟩ [] outer
  | next {before : List (String × Value)} {outer : List Frame} :
    AwaitsMember ⟨.nextKey before, outer⟩ before outer

/-- A member is read back behind the others, unless its value is too deep. -/
lemma run_compactMember {r : Reader} {before : List (String × Value)} {outer : List Frame}
    (hr : Reader.AwaitsMember r before outer) {v : Value} (hv : Reads v) (key : String)
    (houter : outer.length < maxDepth) :
    r.run (compactMember key v) =
      if outer.length + (1 + v.depth) ≤ maxDepth
      then .ok ⟨.afterMember ((key, v) :: before), outer⟩ else .error .tooDeep := by
  have hopen : r.step Byte.quotationMark = .ok ⟨.key before .opened, outer⟩ := by
    cases hr <;> rfl
  have hcolon : Reader.step ⟨.colon before key, outer⟩ Byte.colon =
      .ok ⟨.value, .object before key :: outer⟩ := rfl
  have hvalue := hv ⟨.value, .object before key :: outer⟩ _ .value (Nat.succ_le_of_lt houter)
  rw [List.length_cons, Nat.add_assoc] at hvalue
  rw [compactMember, Reader.run_cons_of_ok hopen,
    Reader.run_append_of_ok (Reader.run_key key before outer), Reader.run_cons_of_ok hcolon]
  exact hvalue

/-- Behind a member, the others are read back and the object is closed, unless one of them is too
deep. -/
lemma run_laterMembers {rest : List (String × Value)} (hrest : ∀ m ∈ rest, Reads m.2)
    (before : List (String × Value)) {outer : List Frame} (houter : outer.length < maxDepth) :
    Reader.run ⟨.afterMember before, outer⟩ (laterMembers rest ++ [Byte.closeBrace]) =
      if outer.length + (1 + depthOfMembers rest) ≤ maxDepth
      then .ok (deliver (.object (before.reverse ++ rest)) outer) else .error .tooDeep := by
  induction rest generalizing before with
  | nil =>
      have hclose : Reader.step ⟨.afterMember before, outer⟩ Byte.closeBrace =
          .ok (deliver (.object before.reverse) outer) := rfl
      rw [depthOfMembers, if_pos (by omega), List.append_nil]
      exact Reader.run_cons_of_ok hclose []
  | cons m rest ih =>
      obtain ⟨key, v⟩ := m
      have hcomma : Reader.step ⟨.afterMember before, outer⟩ Byte.comma =
          .ok ⟨.nextKey before, outer⟩ := rfl
      have hread : Reads v := hrest (key, v) (by simp)
      have hnext : Reader.AwaitsMember ⟨.nextKey before, outer⟩ before outer := .next
      have hv := run_compactMember hnext hread key houter
      have hih := ih (fun w hw => hrest w (by simp [hw])) ((key, v) :: before)
      rw [laterMembers, List.flatMap_cons, List.cons_append, List.cons_append, List.append_assoc,
        Reader.run_cons_of_ok hcomma, depthOfMembers]
      by_cases hdeep : outer.length + (1 + v.depth) ≤ maxDepth
      · rw [if_pos hdeep] at hv
        have hiff : outer.length + (1 + depthOfMembers rest) ≤ maxDepth ↔
            outer.length + (1 + max v.depth (depthOfMembers rest)) ≤ maxDepth := by omega
        have hmembers : ((key, v) :: before).reverse ++ rest =
            before.reverse ++ (key, v) :: rest := by
          rw [List.reverse_cons, List.append_assoc, List.singleton_append]
        rw [Reader.run_append_of_ok hv]
        refine hih.trans ?_
        rw [hmembers]
        exact if_congr hiff rfl rfl
      · rw [if_neg hdeep] at hv
        rw [Reader.run_append_of_error hv, if_neg (by omega)]

lemma reads_object {members : List (String × Value)} (hmembers : ∀ m ∈ members, Reads m.2) :
    Reads (.object members) := by
  intro r outer hr houter
  have hopen : r.step Byte.openBrace = Reader.openContainer outer .firstKey :=
    hr.step_eq (by decide) (by decide)
  rw [bytesOf_compact_object, Value.depth]
  by_cases hlt : outer.length < maxDepth
  · rw [Reader.openContainer, if_pos hlt] at hopen
    rw [Reader.run_cons_of_ok hopen]
    cases members with
    | nil =>
        have hclose : Reader.step ⟨.firstKey, outer⟩ Byte.closeBrace =
            .ok (deliver (.object []) outer) := rfl
        rw [depthOfMembers, if_pos (by omega)]
        exact Reader.run_cons_of_ok hclose []
    | cons m rest =>
        obtain ⟨key, v⟩ := m
        have hread : Reads v := hmembers (key, v) (by simp)
        have hfirst : Reader.AwaitsMember ⟨.firstKey, outer⟩ [] outer := .first
        have hv := run_compactMember hfirst hread key hlt
        have hlater : ∀ w ∈ rest, Reads w.2 := fun w hw => hmembers w (by simp [hw])
        have hrest := run_laterMembers hlater [(key, v)] hlt
        rw [bytesOf_compactMembers, List.append_assoc, depthOfMembers]
        by_cases hdeep : outer.length + (1 + v.depth) ≤ maxDepth
        · rw [if_pos hdeep] at hv
          have hiff : outer.length + (1 + depthOfMembers rest) ≤ maxDepth ↔
              outer.length + (1 + max v.depth (depthOfMembers rest)) ≤ maxDepth := by omega
          rw [Reader.run_append_of_ok hv]
          refine hrest.trans ?_
          exact if_congr hiff rfl rfl
        · rw [if_neg hdeep] at hv
          rw [Reader.run_append_of_error hv, if_neg (by omega)]
  · rw [Reader.openContainer, if_neg hlt] at hopen
    rw [Reader.run_cons_of_error hopen, if_neg (by omega)]

/-! ### Whole texts -/

/-- A compact text is read back to its end, repeated keys merged, if the value is not too deep. -/
theorem read_compact {v : Value} (h : Reads v) (hdepth : v.depth ≤ maxDepth) :
    read (.ofBytes (bytesOf v.compact)) = .ok v.merged := by
  have hrun := h .start [] .value (by simp)
  rw [List.length_nil, Nat.zero_add, if_pos hdepth] at hrun
  obtain ⟨q, hq⟩ := readFrom_of_run_ok hrun .start
  rw [read, Feed.ofBytes, hq]
  rfl

/-- A compact text is given up where too many containers are open, if the value is too deep. -/
theorem read_compact_of_deep {v : Value} (h : Reads v) (hdepth : maxDepth < v.depth) :
    ∃ p, read (.ofBytes (bytesOf v.compact)) = .error (.syntaxError .tooDeep p) := by
  have hrun := h .start [] .value (by simp)
  rw [List.length_nil, Nat.zero_add, if_neg (Nat.not_le.mpr hdepth)] at hrun
  obtain ⟨q, hq⟩ := readFrom_of_run_error hrun .start
  refine ⟨q, ?_⟩
  rw [read, Feed.ofBytes, hq]
  rfl

end RuleScript.Json
