import RuleScript.Proofs.Json.Merged
import RuleScript.Proofs.Script.Uncommented

/-!
What stands in an accepted text and what stands in its script.

* `Lexes`: values whose compact text has the tokens of the value, wherever it stands; the values of
  scripts are such (`lexes_toValue`);
* `HasTokens`: the tokens of a text without its comments;
* `strings`: the strings that a script holds, and `mem_strings_of_mem_tokens`, which finds them in its
  tokens;
* `parseInMemory_written`: an accepted text has the tokens of its script exactly if no object in it
  repeats a key; otherwise all that stood under the key before is lost, without an error
  (`parseInMemory_repeated_key`).
-/

namespace RuleScript

open RuleScript.Json

/-! ### The tokens of a compact text -/

namespace Json

namespace Lexer

variable {l l' : Lexer} {b : UInt8} {tokens : List Token} {bytes : List UInt8}

lemma tokens?_cons (h : l.step b = some (tokens, l')) (rest : List UInt8) :
    l.tokens? (b :: rest) = (l'.tokens? rest).map (tokens ++ ·) := by
  rw [tokens?, h]
  cases hrest : l'.tokens? rest <;> simp [hrest]

/-- A mark is a token by itself. -/
lemma tokens?_mark (hb : isMark b) (rest : List UInt8) :
    between.tokens? (b :: rest) = (between.tokens? rest).map (.mark b :: ·) := by
  have hstep : between.step b = some ([.mark b], between) := by
    rcases eq_of_isMark hb with rfl | rfl | rfl | rfl | rfl | rfl <;> rfl
  exact tokens?_cons hstep rest

lemma tokens?_of_passes {s t : StringToken} (h : StringToken.Passes s bytes t)
    (rest : List UInt8) : (string s).tokens? (bytes ++ rest) = (string t).tokens? rest := by
  induction h with
  | nil => rfl
  | @cons s t u b bytes step _ ih =>
      have hstep : (string s).step b = some ([], string t) := by rw [Lexer.step, step]
      rw [List.cons_append, tokens?_cons hstep, ih]
      simp

/-- A quoted text is a token. -/
lemma tokens?_unquoted (s : String) (rest : List UInt8) :
    between.tokens? (Byte.quotationMark :: (Reader.unquoted s ++ rest)) =
      (between.tokens? rest).map (.scalar (.string s) :: ·) := by
  have hopen : between.step Byte.quotationMark = some ([], string .opened) := rfl
  have hclose : (string ⟨(bytesOf s).reverse, .plain⟩).step Byte.quotationMark =
      some ([.scalar (.string s)], between) := by
    rw [Lexer.step, StringToken.step_quotationMark]
  rw [tokens?_cons hopen, Reader.unquoted, List.append_assoc,
    tokens?_of_passes (Reader.passes_opened s), List.singleton_append, tokens?_cons hclose]
  simp [Function.comp_def]

end Lexer

open Lexer

/-- Wherever the compact text of the value stands between tokens, it has the tokens of the value. -/
def Lexes (v : Value) : Prop :=
  ∀ rest, between.tokens? (bytesOf v.compact ++ rest) = (between.tokens? rest).map (v.tokens ++ ·)

lemma lexes_string (s : String) : Lexes (.string s) := by
  intro rest
  have hbytes : bytesOf (Value.string s).compact ++ rest =
      Byte.quotationMark :: (Reader.unquoted s ++ rest) := by
    rw [Value.compact, bytesOf_quote, Reader.unquoted]
    rfl
  rw [hbytes, tokens?_unquoted]
  simp [Value.tokens]

/-- The items behind the first one have their tokens, each behind a comma. -/
lemma tokens?_laterItems {items : List Value} (hitems : ∀ v ∈ items, Lexes v)
    (rest : List UInt8) : between.tokens? (laterItems items ++ rest) =
      (between.tokens? rest).map
        ((tokensOfItems items).flatMap (.mark Byte.comma :: ·) ++ ·) := by
  induction items with
  | nil => simp [laterItems, tokensOfItems]
  | cons v items ih =>
      have hlater := ih fun w hw => hitems w (by simp [hw])
      rw [laterItems] at hlater
      rw [laterItems, List.flatMap_cons, List.cons_append, List.cons_append, List.append_assoc,
        tokens?_mark (by decide), hitems v (by simp), hlater, tokensOfItems, List.flatMap_cons]
      simp [Function.comp_def]

lemma lexes_array {items : List Value} (hitems : ∀ v ∈ items, Lexes v) :
    Lexes (.array items) := by
  intro rest
  rw [bytesOf_compact_array, List.cons_append, List.append_assoc, List.singleton_append,
    tokens?_mark (by decide), Value.tokens]
  cases items with
  | nil =>
      rw [compactItems]
      rw [show bytesOf "" = [] from rfl, List.nil_append, tokens?_mark (by decide)]
      simp [tokensOfItems, joined, Function.comp_def]
  | cons v items =>
      have hlater : ∀ w ∈ items, Lexes w := fun w hw => hitems w (by simp [hw])
      rw [bytesOf_compactItems, List.append_assoc, hitems v (by simp), tokens?_laterItems hlater,
        tokens?_mark (by decide), tokensOfItems, joined_cons]
      simp [Function.comp_def]

lemma lexes_object (key : String) {v : Value} (hv : Lexes v) : Lexes (.object [(key, v)]) := by
  intro rest
  rw [bytesOf_compact_member, Value.tokens, tokensOfMembers, tokensOfMembers, joined_cons]
  simp only [List.cons_append, List.append_assoc, List.nil_append]
  rw [tokens?_mark (by decide), tokens?_unquoted, tokens?_mark (by decide), hv,
    tokens?_mark (by decide)]
  simp [Function.comp_def]

end Json

namespace Script

lemma lexes_toValue (script : Script) : Lexes script.toValue :=
  lexes_array (forall_mem_toValues lexes_string (fun _ => lexes_array)
    (fun key _ => lexes_object key) script)

/-! ### The tokens of a script -/

/-- The text has the given tokens when its comments are taken out. -/
def HasTokens (text : String) (tokens : List Token) : Prop :=
  ∃ left, Uncommented (bytesOf text) left ∧ tokens? left = some tokens

/-- A text has its tokens only. -/
lemma HasTokens.unique {text : String} {first second : List Token} (h₁ : HasTokens text first)
    (h₂ : HasTokens text second) : first = second := by
  obtain ⟨left₁, huncommented₁, htokens₁⟩ := h₁
  obtain ⟨left₂, huncommented₂, htokens₂⟩ := h₂
  rw [← withoutComments_eq_ofBytes_iff] at huncommented₁ huncommented₂
  obtain rfl := eq_of_map_byte (Feed.mk.inj (huncommented₁.symm.trans huncommented₂)).1
  exact Option.some.inj (htokens₁.symm.trans htokens₂)

lemma hasTokens_compact (script : Script) :
    HasTokens script.toValue.compact script.toValue.tokens := by
  have hlexes := lexes_toValue script []
  rw [List.append_nil] at hlexes
  refine ⟨_, (withoutComments_eq_ofBytes_iff _ _).1 (withoutComments_compact (intact_toValue script)),
    hlexes.trans ?_⟩
  simp [Lexer.tokens?, Lexer.finish]

end Script

/-! ### The strings of a script -/

mutual

/-- The strings of a step: its text, or the name and the arguments of its call. -/
def Step.strings : Step → List String
  | .text s => [s]
  | .call f args => f.name :: args
  | .scope steps => Script.strings steps

/-- The strings of some steps. -/
def Script.strings : List Step → List String
  | [] => []
  | step :: rest => step.strings ++ Script.strings rest

end

namespace Script

lemma mem_of_mem_joined {t : Token} {parts : List (List Token)} (h : t ∈ joined parts) :
    t = .mark Byte.comma ∨ ∃ part ∈ parts, t ∈ part := by
  cases parts with
  | nil => cases h
  | cons first parts =>
      rw [joined_cons, List.mem_append, List.mem_flatMap] at h
      rcases h with hfirst | ⟨part, hpart, hmem⟩
      · exact .inr ⟨first, by simp, hfirst⟩
      · rcases List.mem_cons.1 hmem with rfl | hmem
        · exact .inl rfl
        · exact .inr ⟨part, by simp [hpart], hmem⟩

/-- A string that is written in an array is written in one of its items. -/
lemma exists_of_mem_tokens_array {s : String} {items : List Value}
    (h : .scalar (.string s) ∈ (Value.array items).tokens) :
    ∃ v ∈ items, .scalar (.string s) ∈ v.tokens := by
  rw [Value.tokens, tokensOfItems_eq_map, List.mem_cons, List.mem_append, List.mem_singleton] at h
  rcases h with h | h | h
  · cases h
  · rcases mem_of_mem_joined h with h | ⟨part, hpart, hmem⟩
    · cases h
    · obtain ⟨v, hv, rfl⟩ := List.mem_map.1 hpart
      exact ⟨v, hv, hmem⟩
  · cases h

/-- Every string that a script is written with is the key of a nested scope or stands in the script. -/
lemma mem_strings_of_mem_tokens (steps : List Step) :
    ∀ v ∈ toValues steps, ∀ s, .scalar (.string s) ∈ v.tokens →
      s = Step.scopeKey ∨ s ∈ strings steps := by
  have hcons : ∀ {step : Step} {rest : List Step},
      (∀ s, .scalar (.string s) ∈ step.toValue.tokens → s = Step.scopeKey ∨ s ∈ step.strings) →
      (∀ v ∈ toValues rest, ∀ s, .scalar (.string s) ∈ v.tokens →
        s = Step.scopeKey ∨ s ∈ strings rest) →
      ∀ v ∈ toValues (step :: rest), ∀ s, .scalar (.string s) ∈ v.tokens →
        s = Step.scopeKey ∨ s ∈ strings (step :: rest) := by
    intro step rest hstep hrest
    rw [toValues, List.forall_mem_cons, strings]
    refine ⟨fun s hs => ?_, fun v hv s hs => ?_⟩
    · exact (hstep s hs).imp_right (List.mem_append_left _)
    · exact (hrest v hv s hs).imp_right (List.mem_append_right _)
  induction steps using ind with
  | nil => simp [toValues]
  | text x rest ih =>
      refine hcons (fun s hs => ?_) ih
      simp only [Step.toValue, Value.tokens, List.mem_singleton] at hs
      obtain rfl := Value.string.inj (Token.scalar.inj hs)
      exact .inr (by simp [Step.strings])
  | call f args rest ih =>
      refine hcons (fun s hs => ?_) ih
      have htexts : Value.string f.name :: args.map .string = (f.name :: args).map .string := rfl
      rw [Step.toValue, htexts] at hs
      obtain ⟨v, hv, hmem⟩ := exists_of_mem_tokens_array hs
      obtain ⟨x, hx, rfl⟩ := List.mem_map.1 hv
      simp only [Value.tokens, List.mem_singleton] at hmem
      obtain rfl := Value.string.inj (Token.scalar.inj hmem)
      rw [Step.strings]
      exact .inr hx
  | scope inner rest ihinner ihrest =>
      refine hcons (fun s hs => ?_) ihrest
      rw [Step.toValue, Value.tokens, tokensOfMembers, tokensOfMembers, joined_cons] at hs
      simp only [List.flatMap_nil, List.append_nil, List.cons_append, List.mem_cons, List.mem_append,
        List.not_mem_nil, or_false] at hs
      rcases hs with h | h | h | h | h
      · cases h
      · exact .inl (Value.string.inj (Token.scalar.inj h))
      · cases h
      · obtain ⟨v, hv, hmem⟩ := exists_of_mem_tokens_array h
        rw [Step.strings]
        exact ihinner v hv s hmem
      · cases h

/-! ### What is lost -/

/-- **What an accepted text holds.** Its tokens are those of some value that becomes the script when
repeated keys are merged. They are the tokens of the script's compact text exactly if no object in
the text repeats a key, and then every string in the text is the key of a nested scope or stands in
the script. -/
theorem parseInMemory_written {source : String} {script : Script}
    (h : parseInMemory source = .ok script) :
    ∃ v : Value, HasTokens source v.tokens ∧ v.merged = script.toValue ∧
      ((∃ tokens, HasTokens source tokens ∧ HasTokens script.toValue.compact tokens) ↔
        v.KeysDistinct) ∧
      (v.KeysDistinct → v = script.toValue ∧
        ∀ s, .scalar (.string s) ∈ v.tokens → s = Step.scopeKey ∨ s ∈ strings script) := by
  obtain ⟨left, r, v, huncommented, hrun, hfinish, hmerged⟩ :=
    ofBytes_eq_ok_iff.1 (parseInMemory_eq_ok_iff.1 h)
  have hsource : HasTokens source v.tokens := ⟨left, huncommented, tokens?_of_read hrun hfinish⟩
  have hdistinct : v.KeysDistinct → v = script.toValue := fun hkeys =>
    (merged_of_keysDistinct hkeys).symm.trans hmerged
  refine ⟨v, hsource, hmerged, ⟨?_, ?_⟩, ?_⟩
  · rintro ⟨tokens, htokens, hcompact⟩
    have heq : v.tokens = v.merged.tokens := by
      rw [hmerged, hsource.unique htokens, hcompact.unique (hasTokens_compact script)]
    by_contra hnot
    exact absurd (congrArg colons heq) (Nat.ne_of_gt (colons_merged_lt hnot))
  · intro hkeys
    have hcompact := hasTokens_compact script
    rw [← hdistinct hkeys] at hcompact ⊢
    exact ⟨v.tokens, hsource, hcompact⟩
  · intro hkeys
    refine ⟨hdistinct hkeys, fun s hs => ?_⟩
    rw [hdistinct hkeys] at hs
    obtain ⟨w, hw, hmem⟩ := exists_of_mem_tokens_array hs
    exact mem_strings_of_mem_tokens script w hw s hmem

/-- A nested scope among comments, with a single key. -/
theorem parseInMemory_written_commented :
    ∃ v : Value, HasTokens "[/* \" */\x7b\"scope\":[[\"genvar\"]]\x7d] // ]" v.tokens ∧
      v.merged = toValue [.scope [.call .genVar []]] ∧
      ((∃ tokens, HasTokens "[/* \" */\x7b\"scope\":[[\"genvar\"]]\x7d] // ]" tokens ∧
          HasTokens (toValue [.scope [.call .genVar []]]).compact tokens) ↔ v.KeysDistinct) ∧
      (v.KeysDistinct → v = toValue [.scope [.call .genVar []]] ∧
        ∀ s, .scalar (.string s) ∈ v.tokens →
          s = Step.scopeKey ∨ s ∈ strings [.scope [.call .genVar []]]) :=
  parseInMemory_written rfl

/-- With its key repeated, a nested scope is accepted as its last value: the call that stood under the
key before is in no step, and the text has tokens that the script has not. -/
theorem parseInMemory_repeated_key :
    parseInMemory "[\x7b\"scope\":[[\"genvar\"]],\"scope\":[]\x7d]" = .ok [.scope []] ∧
      ¬ ∃ tokens, HasTokens "[\x7b\"scope\":[[\"genvar\"]],\"scope\":[]\x7d]" tokens ∧
        HasTokens (toValue [.scope []]).compact tokens := by
  refine ⟨rfl, ?_⟩
  rintro ⟨tokens, hsource, hcompact⟩
  have htwice : HasTokens "[\x7b\"scope\":[[\"genvar\"]],\"scope\":[]\x7d]"
      (Value.array [.object [("scope", .array [.array [.string "genvar"]]),
        ("scope", .array [])]]).tokens :=
    ⟨bytesOf "[\x7b\"scope\":[[\"genvar\"]],\"scope\":[]\x7d]",
      (withoutComments_eq_ofBytes_iff _ _).1 rfl, rfl⟩
  have heq := (htwice.unique hsource).trans (hcompact.unique (hasTokens_compact _))
  exact absurd (congrArg List.length heq) (by decide)

end Script

end RuleScript
