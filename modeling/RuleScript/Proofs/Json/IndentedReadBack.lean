import RuleScript.Json.Pretty
import RuleScript.Proofs.Json.ReadBack

/-!
Indented texts read back: the reader passes over the new lines and the blanks of the indentation.

* `Reader.run_newline`: a new line and its indentation are passed over where blanks change nothing;
* `ReadsIndented`: wherever a value is waited for, the indented text gives it back, at every depth
  of indentation;
* `readsIndented_array`, `readsIndented_object`: arrays and objects inherit this from their items
  and members;
* `read_pretty`: what this means for a whole text.
-/

namespace RuleScript.Json

open Reader (maxDepth deliver Awaits unquoted)

/-! ### Blanks -/

namespace Reader

variable {r : Reader} {outer : List Frame}

lemma Awaits.skipsBlanks (h : Awaits r outer) : r.SkipsBlanks := by
  intro b hb
  cases h <;> simp [step, stepOutsideNumber, hb]

lemma skipsBlanks_afterItem (before : List Value) (outer : List Frame) :
    SkipsBlanks ⟨.afterItem before, outer⟩ := by
  intro b hb
  simp [step, stepOutsideNumber, hb]

lemma skipsBlanks_afterMember (before : List (String × Value)) (outer : List Frame) :
    SkipsBlanks ⟨.afterMember before, outer⟩ := by
  intro b hb
  simp [step, stepOutsideNumber, hb]

end Reader

/-- A new line and the indentation behind it are blanks. -/
lemma isBlank_of_mem_newline {depth : ℕ} {b : UInt8} (hb : b ∈ bytesOf (newline depth)) :
    isBlank b := by
  have hline : bytesOf "\n" = [Byte.lineFeed] := rfl
  have hspace : String.utf8EncodeChar ' ' = [Byte.space] := rfl
  rw [newline, bytesOf_append, hline, bytesOf_ofList, List.mem_append, List.mem_flatMap] at hb
  rcases hb with hb | ⟨c, hc, hb⟩
  · rw [List.mem_singleton.1 hb]
    decide
  · rw [(List.mem_replicate.1 hc).2, hspace] at hb
    rw [List.mem_singleton.1 hb]
    decide

/-- A new line is passed over. -/
lemma Reader.run_newline {r : Reader} (h : r.SkipsBlanks) (depth : ℕ) (rest : List UInt8) :
    r.run (bytesOf (newline depth) ++ rest) = r.run rest :=
  run_append_of_ok (run_blanks h fun _ hb => isBlank_of_mem_newline hb) rest

/-! ### Values that stand on one line -/

/-- Wherever a value is waited for, the indented text of this one is read back, unless the
containers that are open and those of the value are too many. -/
def ReadsIndented (v : Value) : Prop :=
  ∀ (depth : ℕ) (r : Reader) (outer : List Frame), Awaits r outer →
    outer.length + v.depth ≤ maxDepth →
      r.run (bytesOf (v.prettyAt depth)) = .ok (deliver v outer)

lemma readsIndented_string (s : String) : ReadsIndented (.string s) := by
  intro depth r outer hr hdepth
  have hread := reads_string s r outer hr (Nat.le_trans (Nat.le_add_right _ _) hdepth)
  rw [if_pos hdepth, Value.compact] at hread
  rw [Value.prettyAt]
  exact hread

lemma readsIndented_null : ReadsIndented .null := by
  intro depth r outer hr hdepth
  have hread := reads_null r outer hr (Nat.le_trans (Nat.le_add_right _ _) hdepth)
  rw [if_pos hdepth] at hread
  rw [Value.prettyAt]
  exact hread

/-! ### Arrays -/

/-- The items behind the first one, each behind a comma on a line of its own. -/
def laterIndentedItems (depth : ℕ) (rest : List Value) : List UInt8 :=
  rest.flatMap fun v =>
    Byte.comma :: (bytesOf (newline (depth + 1)) ++ bytesOf (v.prettyAt (depth + 1)))

lemma bytesOf_prettyItems (depth : ℕ) (v : Value) (rest : List Value) :
    bytesOf (prettyItems depth (v :: rest)) =
      bytesOf (newline (depth + 1)) ++
        (bytesOf (v.prettyAt (depth + 1)) ++ laterIndentedItems depth rest) := by
  induction rest generalizing v with
  | nil => simp [prettyItems, laterIndentedItems]
  | cons w rest ih =>
      have hcomma : bytesOf "," = [Byte.comma] := rfl
      rw [prettyItems, bytesOf_append, bytesOf_append, bytesOf_append, ih w, hcomma]
      simp [laterIndentedItems]

/-- Behind an item, the others are read back and the array is closed. -/
lemma run_laterIndentedItems {rest : List Value} (hrest : ∀ v ∈ rest, ReadsIndented v)
    (before : List Value) (depth : ℕ) {outer : List Frame}
    (hdepth : outer.length + (1 + depthOfItems rest) ≤ maxDepth) :
    Reader.run ⟨.afterItem before, outer⟩
        (laterIndentedItems depth rest ++ (bytesOf (newline depth) ++ [Byte.closeBracket])) =
      .ok (deliver (.array (before.reverse ++ rest)) outer) := by
  induction rest generalizing before with
  | nil =>
      have hclose : Reader.step ⟨.afterItem before, outer⟩ Byte.closeBracket =
          .ok (deliver (.array before.reverse) outer) := rfl
      rw [laterIndentedItems, List.flatMap_nil, List.nil_append, List.append_nil,
        Reader.run_newline (Reader.skipsBlanks_afterItem before outer)]
      exact Reader.run_cons_of_ok hclose []
  | cons v rest ih =>
      have hcomma : Reader.step ⟨.afterItem before, outer⟩ Byte.comma =
          .ok ⟨.nextItem before, outer⟩ := rfl
      have hawaits : Awaits ⟨.nextItem before, outer⟩ (.array before :: outer) := .nextItem
      rw [depthOfItems] at hdepth
      have hv := hrest v (by simp) (depth + 1) _ _ hawaits (by rw [List.length_cons]; omega)
      have hih := ih (fun w hw => hrest w (by simp [hw])) (v :: before) (by omega)
      rw [List.reverse_cons, List.append_assoc, List.singleton_append] at hih
      rw [laterIndentedItems, List.flatMap_cons, List.cons_append, List.cons_append,
        List.append_assoc, List.append_assoc, Reader.run_cons_of_ok hcomma,
        Reader.run_newline hawaits.skipsBlanks, Reader.run_append_of_ok hv]
      exact hih

lemma readsIndented_array {items : List Value} (hitems : ∀ v ∈ items, ReadsIndented v) :
    ReadsIndented (.array items) := by
  intro depth r outer hr hdepth
  rw [Value.depth] at hdepth
  have hopen : r.step Byte.openBracket = Reader.openContainer outer .firstItem :=
    hr.step_eq (by decide) (by decide)
  rw [Reader.openContainer, if_pos (by omega)] at hopen
  cases items with
  | nil =>
      have hbytes : bytesOf ((Value.array []).prettyAt depth) =
          Byte.openBracket :: [Byte.closeBracket] := by
        rw [Value.prettyAt]
        rfl
      have hclose : Reader.step ⟨.firstItem, outer⟩ Byte.closeBracket =
          .ok (deliver (.array []) outer) := rfl
      rw [hbytes, Reader.run_cons_of_ok hopen]
      exact Reader.run_cons_of_ok hclose []
  | cons v rest =>
      have hbytes : bytesOf ((Value.array (v :: rest)).prettyAt depth) =
          Byte.openBracket :: (bytesOf (newline (depth + 1)) ++ (bytesOf (v.prettyAt (depth + 1)) ++
            (laterIndentedItems depth rest ++ (bytesOf (newline depth) ++ [Byte.closeBracket])))) := by
        have hbracket : bytesOf "[" = [Byte.openBracket] := rfl
        have hclose : bytesOf "]" = [Byte.closeBracket] := rfl
        rw [Value.prettyAt, bytesOf_append, bytesOf_append, bytesOf_append, bytesOf_prettyItems,
          hbracket, hclose]
        simp
      have hawaits : Awaits ⟨.firstItem, outer⟩ (.array [] :: outer) := .firstItem
      rw [depthOfItems] at hdepth
      have hv := hitems v (by simp) (depth + 1) _ _ hawaits (by rw [List.length_cons]; omega)
      have hlater : ∀ w ∈ rest, ReadsIndented w := fun w hw => hitems w (by simp [hw])
      rw [hbytes, Reader.run_cons_of_ok hopen, Reader.run_newline hawaits.skipsBlanks,
        Reader.run_append_of_ok hv]
      exact run_laterIndentedItems hlater [v] depth (by omega)

/-! ### Objects -/

/-- A member on a line of its own. -/
def indentedMember (depth : ℕ) (key : String) (v : Value) : List UInt8 :=
  bytesOf (newline (depth + 1)) ++ Byte.quotationMark ::
    (unquoted key ++ Byte.colon :: Byte.space :: bytesOf (v.prettyAt (depth + 1)))

/-- The members behind the first one, each behind a comma. -/
def laterIndentedMembers (depth : ℕ) (rest : List (String × Value)) : List UInt8 :=
  rest.flatMap fun (key, v) => Byte.comma :: indentedMember depth key v

lemma bytesOf_member (depth : ℕ) (key : String) (v : Value) :
    bytesOf (newline (depth + 1) ++ quote key ++ ": " ++ v.prettyAt (depth + 1)) =
      indentedMember depth key v := by
  have hcolon : bytesOf ": " = [Byte.colon, Byte.space] := rfl
  rw [bytesOf_append, bytesOf_append, bytesOf_append, bytesOf_quote, hcolon]
  simp [indentedMember, unquoted]

lemma bytesOf_prettyMembers (depth : ℕ) (key : String) (v : Value)
    (rest : List (String × Value)) :
    bytesOf (prettyMembers depth ((key, v) :: rest)) =
      indentedMember depth key v ++ laterIndentedMembers depth rest := by
  induction rest generalizing key v with
  | nil =>
      rw [prettyMembers, bytesOf_member, laterIndentedMembers, List.flatMap_nil, List.append_nil]
  | cons m rest ih =>
      obtain ⟨k, w⟩ := m
      have hcomma : bytesOf "," = [Byte.comma] := rfl
      rw [prettyMembers, bytesOf_append, bytesOf_append, bytesOf_member, ih, hcomma]
      simp [laterIndentedMembers]

/-- A member is read back behind the others. -/
lemma run_indentedMember {r : Reader} {before : List (String × Value)} {outer : List Frame}
    (hr : Reader.AwaitsMember r before outer) {v : Value} (hv : ReadsIndented v) (depth : ℕ)
    (key : String) (hdepth : outer.length + (1 + v.depth) ≤ maxDepth) :
    r.run (indentedMember depth key v) = .ok ⟨.afterMember ((key, v) :: before), outer⟩ := by
  have hskips : r.SkipsBlanks := by
    intro b hb
    cases hr <;> simp [Reader.step, Reader.stepOutsideNumber, hb]
  have hopen : r.step Byte.quotationMark = .ok ⟨.key before .opened, outer⟩ := by
    cases hr <;> rfl
  have hcolon : Reader.step ⟨.colon before key, outer⟩ Byte.colon =
      .ok ⟨.value, .object before key :: outer⟩ := rfl
  have hspace : Reader.step ⟨.value, .object before key :: outer⟩ Byte.space =
      .ok ⟨.value, .object before key :: outer⟩ := rfl
  have hvalue := hv (depth + 1) ⟨.value, .object before key :: outer⟩ _ .value
    (by rw [List.length_cons]; omega)
  rw [indentedMember, Reader.run_newline hskips, Reader.run_cons_of_ok hopen,
    Reader.run_append_of_ok (Reader.run_key key before outer), Reader.run_cons_of_ok hcolon,
    Reader.run_cons_of_ok hspace]
  exact hvalue

/-- Behind a member, the others are read back and the object is closed. -/
lemma run_laterIndentedMembers {rest : List (String × Value)}
    (hrest : ∀ m ∈ rest, ReadsIndented m.2) (before : List (String × Value)) (depth : ℕ)
    {outer : List Frame} (hdepth : outer.length + (1 + depthOfMembers rest) ≤ maxDepth) :
    Reader.run ⟨.afterMember before, outer⟩
        (laterIndentedMembers depth rest ++ (bytesOf (newline depth) ++ [Byte.closeBrace])) =
      .ok (deliver (.object (before.reverse ++ rest)) outer) := by
  induction rest generalizing before with
  | nil =>
      have hclose : Reader.step ⟨.afterMember before, outer⟩ Byte.closeBrace =
          .ok (deliver (.object before.reverse) outer) := rfl
      rw [laterIndentedMembers, List.flatMap_nil, List.nil_append, List.append_nil,
        Reader.run_newline (Reader.skipsBlanks_afterMember before outer)]
      exact Reader.run_cons_of_ok hclose []
  | cons m rest ih =>
      obtain ⟨key, v⟩ := m
      have hcomma : Reader.step ⟨.afterMember before, outer⟩ Byte.comma =
          .ok ⟨.nextKey before, outer⟩ := rfl
      rw [depthOfMembers] at hdepth
      have hread : ReadsIndented v := hrest (key, v) (by simp)
      have hnext : Reader.AwaitsMember ⟨.nextKey before, outer⟩ before outer := .next
      have hv := run_indentedMember hnext hread depth key (by omega)
      have hih := ih (fun w hw => hrest w (by simp [hw])) ((key, v) :: before) (by omega)
      rw [List.reverse_cons, List.append_assoc, List.singleton_append] at hih
      rw [laterIndentedMembers, List.flatMap_cons, List.cons_append, List.cons_append,
        List.append_assoc, Reader.run_cons_of_ok hcomma, Reader.run_append_of_ok hv]
      exact hih

lemma readsIndented_object {members : List (String × Value)}
    (hmembers : ∀ m ∈ members, ReadsIndented m.2) : ReadsIndented (.object members) := by
  intro depth r outer hr hdepth
  rw [Value.depth] at hdepth
  have hopen : r.step Byte.openBrace = Reader.openContainer outer .firstKey :=
    hr.step_eq (by decide) (by decide)
  rw [Reader.openContainer, if_pos (by omega)] at hopen
  cases members with
  | nil =>
      have hbytes : bytesOf ((Value.object []).prettyAt depth) =
          Byte.openBrace :: [Byte.closeBrace] := by
        rw [Value.prettyAt]
        rfl
      have hclose : Reader.step ⟨.firstKey, outer⟩ Byte.closeBrace =
          .ok (deliver (.object []) outer) := rfl
      rw [hbytes, Reader.run_cons_of_ok hopen]
      exact Reader.run_cons_of_ok hclose []
  | cons m rest =>
      obtain ⟨key, v⟩ := m
      have hbytes : bytesOf ((Value.object ((key, v) :: rest)).prettyAt depth) =
          Byte.openBrace :: (indentedMember depth key v ++
            (laterIndentedMembers depth rest ++ (bytesOf (newline depth) ++ [Byte.closeBrace]))) := by
        have hbrace : bytesOf "\x7b" = [Byte.openBrace] := rfl
        have hclose : bytesOf "\x7d" = [Byte.closeBrace] := rfl
        rw [Value.prettyAt, bytesOf_append, bytesOf_append, bytesOf_append, bytesOf_prettyMembers,
          hbrace, hclose]
        simp
      rw [depthOfMembers] at hdepth
      have hread : ReadsIndented v := hmembers (key, v) (by simp)
      have hfirst : Reader.AwaitsMember ⟨.firstKey, outer⟩ [] outer := .first
      have hv := run_indentedMember hfirst hread depth key (by omega)
      have hlater : ∀ w ∈ rest, ReadsIndented w.2 := fun w hw => hmembers w (by simp [hw])
      rw [hbytes, Reader.run_cons_of_ok hopen, Reader.run_append_of_ok hv]
      exact run_laterIndentedMembers hlater [(key, v)] depth (by omega)

/-! ### Whole texts -/

/-- An indented text is read back to its end, repeated keys merged, if the value is not too deep. -/
theorem read_pretty {v : Value} (h : ReadsIndented v) (hdepth : v.depth ≤ maxDepth) :
    read (.ofBytes (bytesOf v.pretty)) = .ok v.merged := by
  have hrun := h 0 .start [] .value (by simpa using hdepth)
  obtain ⟨q, hq⟩ := readFrom_of_run_ok hrun .start
  rw [read, Feed.ofBytes, Value.pretty, hq]
  rfl

end RuleScript.Json
