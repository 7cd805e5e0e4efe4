import RuleScript.Proofs.Json.Merged
import RuleScript.Proofs.Script.Intact
import RuleScript.Script.Run

/-!
A script that is written as a compact text is read back from it, exactly up to the depth that the
reader allows.

* `Script.depth`: how deep the containers of a script are nested, counted on its steps, and
  `depth_toValue`, which says that the reader counts the same in the text;
* `Script.ofValue_toValue`: the value of a script stands for that script;
* `reads_toValue`, `intact_toValue`, `merged_toValue`: the text of a script is read back, holds no
  comment and repeats no key, whatever its strings are;
* `parseInMemory_compact`: the script is read back up to a depth of 127 and rejected above it.
-/

namespace RuleScript

open RuleScript.Json (Value Reads read_compact read_compact_of_deep)

/-! ### Depth -/

mutual

/-- The depth of a step: a text is no container, a call is one, and a nested scope is one around
the steps in it. -/
def Step.depth : Step → ℕ
  | .text _ => 0
  | .call _ _ => 1
  | .scope steps => 1 + (1 + Script.deepest steps)

/-- The depth of the deepest step. -/
def Script.deepest : List Step → ℕ
  | [] => 0
  | step :: rest => max step.depth (Script.deepest rest)

end

namespace Script

/-- The depth of a script: one more than that of its deepest step. -/
def depth (script : Script) : ℕ := 1 + deepest script

lemma depthOfItems_string (args : List String) :
    Json.depthOfItems (args.map Value.string) = 0 := by
  induction args with
  | nil => rfl
  | cons arg args ih => rw [List.map_cons, Json.depthOfItems, ih]; rfl

lemma depthOfItems_toValues (steps : List Step) :
    Json.depthOfItems (toValues steps) = deepest steps := by
  induction steps using ind with
  | nil => rfl
  | text x rest ih => rw [toValues, Json.depthOfItems, deepest, ih]; rfl
  | call f args rest ih =>
      have hcall : (Step.call f args).toValue.depth = 1 := by
        rw [Step.toValue, Value.depth, Json.depthOfItems, depthOfItems_string]
        rfl
      rw [toValues, Json.depthOfItems, deepest, ih, hcall, Step.depth]
  | scope inner rest ihinner ihrest =>
      have hscope : (Step.scope inner).toValue.depth = (Step.scope inner).depth := by
        rw [Step.toValue, Value.depth, Json.depthOfMembers, Json.depthOfMembers, Nat.max_zero,
          Value.depth, ihinner, Step.depth]
      rw [toValues, Json.depthOfItems, deepest, ihrest, hscope]

/-- A script inside nested scopes, the given number of them. -/
def within : ℕ → Script → Script
  | 0, script => script
  | n + 1, script => [.scope (within n script)]

lemma depth_within (n : ℕ) (script : Script) :
    (within n script).depth = 2 * n + script.depth := by
  induction n with
  | zero => rw [within, Nat.mul_zero, Nat.zero_add]
  | succ n ih =>
      rw [depth] at ih
      rw [within, depth, deepest, deepest, Step.depth, ih, Nat.max_zero]
      omega

/-- The reader finds the depth of a script in its text. -/
lemma depth_toValue (script : Script) : script.toValue.depth = script.depth := by
  rw [toValue, Value.depth, depthOfItems_toValues, depth]

/-! ### From values back to scripts -/

lemma argsOfValues_string (name : String) (args : List String) :
    Step.argsOfValues name (args.map Value.string) = .ok args := by
  induction args with
  | nil => rfl
  | cons arg args ih => rw [List.map_cons, Step.argsOfValues, ih]; rfl

lemma ofValues_toValues (steps : List Step) : ofValues (toValues steps) = .ok steps := by
  have hcons : ∀ {step : Step} {rest : List Step}, Step.ofValue step.toValue = .ok step →
      ofValues (toValues rest) = .ok rest →
        ofValues (toValues (step :: rest)) = .ok (step :: rest) := by
    intro step rest hstep hrest
    rw [toValues, ofValues, hstep, hrest]
    rfl
  induction steps using ind with
  | nil => rfl
  | text x rest ih => exact hcons rfl ih
  | call f args rest ih =>
      refine hcons ?_ ih
      rw [Step.toValue, Step.ofValue, Step.callOfValues, TemplateFunction.ofName?_name]
      simp only [argsOfValues_string]
      rfl
  | scope inner rest ihinner ihrest =>
      refine hcons ?_ ihrest
      rw [Step.toValue, Step.ofValue, if_pos rfl, ihinner]
      rfl

/-- The value that a script is written as stands for that script. -/
lemma ofValue_toValue (script : Script) : ofValue script.toValue = .ok script :=
  ofValues_toValues script

/-! ### From texts back to values -/

/-- What strings satisfy, and arrays and objects with one member inherit, holds of all values in a
script. -/
lemma forall_mem_toValues {P : Value → Prop} (string : ∀ s, P (.string s))
    (array : ∀ items, (∀ v ∈ items, P v) → P (.array items))
    (object : ∀ key v, P v → P (.object [(key, v)])) (steps : List Step) :
    ∀ v ∈ toValues steps, P v := by
  induction steps using ind with
  | nil => simp [toValues]
  | text x rest ih => exact List.forall_mem_cons.mpr ⟨string x, ih⟩
  | call f args rest ih =>
      refine List.forall_mem_cons.mpr ⟨array _ ?_, ih⟩
      refine List.forall_mem_cons.mpr ⟨string f.name, ?_⟩
      intro v hv
      obtain ⟨arg, _, rfl⟩ := List.mem_map.mp hv
      exact string arg
  | scope inner rest ihinner ihrest =>
      exact List.forall_mem_cons.mpr ⟨object _ _ (array _ ihinner), ihrest⟩

lemma reads_toValue (script : Script) : Reads script.toValue := by
  have hvalues : ∀ v ∈ toValues script, Reads v :=
    forall_mem_toValues Json.reads_string (fun _ => Json.reads_array)
      (fun _ _ hv => Json.reads_object (by simpa using hv)) script
  exact Json.reads_array hvalues

lemma intact_toValue (script : Script) : Intact script.toValue := by
  have hvalues : ∀ v ∈ toValues script, Intact v :=
    forall_mem_toValues intact_string (fun _ => intact_array) (fun key _ => intact_object key)
      script
  exact intact_array hvalues

lemma keysDistinct_toValue (script : Script) : script.toValue.KeysDistinct :=
  .array (forall_mem_toValues .string (fun _ => .array)
    (fun key _ hv => .object (by simp) (by simpa using hv)) script)

/-- Merging repeated keys changes nothing in a script, whose objects have a single key. -/
lemma merged_toValue (script : Script) : script.toValue.merged = script.toValue :=
  Json.merged_of_keysDistinct (keysDistinct_toValue script)

/-! ### The round trip -/

/-- A script is read back from its compact text if it is not too deep. -/
lemma parse_compact {script : Script} (h : script.depth ≤ Json.Reader.maxDepth) :
    parse script.toValue.compact = .ok script := by
  have hdepth : script.toValue.depth ≤ Json.Reader.maxDepth := by rw [depth_toValue]; exact h
  have hread : Json.read (.ofBytes (Json.bytesOf script.toValue.compact)) = .ok script.toValue := by
    rw [read_compact (reads_toValue script) hdepth, merged_toValue]
  calc parse script.toValue.compact
      = ofFeed (.ofBytes (Json.bytesOf script.toValue.compact)) := by
        rw [parse, ofBytes, withoutComments_compact (intact_toValue script)]
    _ = (ofValue script.toValue).mapError .badStep := by simp only [ofFeed, hread]
    _ = .ok script := by rw [ofValue_toValue]; rfl

/-- A script that is too deep is given up in its compact text. -/
lemma parse_compact_of_deep {script : Script} (h : Json.Reader.maxDepth < script.depth) :
    ∃ p, parse script.toValue.compact = .error (.notJson (.syntaxError .tooDeep p)) := by
  have hdeep : Json.Reader.maxDepth < script.toValue.depth := by rw [depth_toValue]; exact h
  obtain ⟨p, hp⟩ := read_compact_of_deep (reads_toValue script) hdeep
  refine ⟨p, ?_⟩
  rw [parse, ofBytes, withoutComments_compact (intact_toValue script), ofFeed, hp]

/-- **Scripts are read back from their compact text**, whatever characters their texts and arguments
hold, up to a depth of 127; a deeper one is rejected as nested too deep, under the name of a script
that is in no file. -/
theorem parseInMemory_compact (script : Script) :
    (script.depth ≤ 127 → parseInMemory script.toValue.compact = .ok script) ∧
      (127 < script.depth → ∃ p,
        parseInMemory script.toValue.compact =
          .error (.script "<memory>" (.notJson (.syntaxError .tooDeep p))) ∧
        RunError.message (.script "<memory>" (.notJson (.syntaxError .tooDeep p))) =
          "ParsingError in <memory>: Invalid JSON syntax: recursion limit exceeded at " ++
            p.text) := by
  refine ⟨?_, ?_⟩
  · intro h
    rw [parseInMemory, parse_compact h]
    rfl
  · intro h
    obtain ⟨p, hp⟩ := parse_compact_of_deep h
    refine ⟨p, ?_, ?_⟩
    · rw [parseInMemory, hp]
      rfl
    · rfl

/-- In 63 nested scopes a text is read back, with a quotation mark, a backslash and the beginnings
of comments in it, but a call is too deep there. -/
theorem parseInMemory_compact_within :
    parseInMemory (toValue (within 63 [.text "\"\\ // /*"])).compact =
        .ok (within 63 [.text "\"\\ // /*"]) ∧
      ∃ p, parseInMemory (toValue (within 63 [.call .genVar []])).compact =
        .error (.script "<memory>" (.notJson (.syntaxError .tooDeep p))) := by
  refine ⟨(parseInMemory_compact _).1 ?_, ?_⟩
  · rw [depth_within]
    decide
  · have hdeep : 127 < (within 63 [.call .genVar []]).depth := by
      rw [depth_within]
      decide
    obtain ⟨p, hp, -⟩ := (parseInMemory_compact _).2 hdeep
    exact ⟨p, hp⟩

end Script

end RuleScript
