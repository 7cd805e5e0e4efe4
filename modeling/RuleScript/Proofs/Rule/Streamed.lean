import RuleScript.Proofs.Rule.Alongside
import RuleScript.Proofs.Rule.Exported

/-!
Rules read directly from a text, and rules read from the value of the text.

* `Json.written?`: the value of a text as it is written, repeated keys and all; merged, it is the
  value that the text denotes (`Json.parse?_eq_map_written?`);
* `Rule.reads_toValue`: the compact text of a rule is read back;
* `Rule.ofText_agrees`: both ways give the same rules.
-/

namespace RuleScript

open RuleScript.Json (Value)

/-- The value that stands in a text as it is written, repeated keys and all. -/
def Json.written? (text : String) : Option Value :=
  match readFrom .start .start ((bytesOf text).map .byte) none with
  | .ok w => some w
  | .error _ => none

/-- What a text denotes is what is written in it, repeated keys merged. -/
lemma Json.parse?_eq_map_written? (text : String) :
    parse? text = (written? text).map Value.merged := by
  rw [parse?, read, Feed.ofBytes, written?]
  cases readFrom .start .start ((bytesOf text).map .byte) none <;> rfl

lemma Json.written?_eq_some_iff {text : String} {w : Value} :
    written? text = some w ↔
      ∃ r, Json.Reader.start.run (bytesOf text) = .ok r ∧ r.finish = .ok w := by
  have hread : written? text = some w ↔
      readFrom .start .start ((bytesOf text).map .byte) none = .ok w := by
    rw [written?]
    cases readFrom .start .start ((bytesOf text).map .byte) none <;> simp
  rw [hread, readFrom_eq_ok_iff]
  constructor
  · rintro ⟨bytes, r, hbytes, -, hrun⟩
    rw [List.map_injective_iff.2 (fun _ _ => Feed.Item.byte.inj) hbytes]
    exact ⟨r, hrun⟩
  · rintro ⟨r, hrun⟩
    exact ⟨bytesOf text, r, rfl, rfl, hrun⟩

namespace Rule

lemma reads_toValue (r : Rule) : Json.Reads r.toValue := by
  have hemitter : Json.Reads (emitterValue r.emitter) := by
    cases r.emitter with
    | none => exact Json.reads_null
    | some emitter => exact Json.reads_string emitter
  refine Json.reads_object ?_
  simp [Json.reads_string, hemitter]

/-- The compact text of a rule holds the value of the rule. -/
lemma written?_compact (r : Rule) : Json.written? r.toValue.compact = some r.toValue := by
  have hdepth : r.toValue.depth ≤ Json.Reader.maxDepth := by
    rw [r.depth_toValue]
    decide
  have hrun := r.reads_toValue .start [] .value (by simp)
  rw [List.length_nil, Nat.zero_add, if_pos hdepth] at hrun
  exact Json.written?_eq_some_iff.2 ⟨_, hrun, rfl⟩

/-- Where no key of a part comes twice, a text and its value are read as the same rules. -/
lemma ofText_eq_ok_iff {text : String} {v : Value} {r : Rule} (hv : Json.parse? text = some v)
    (honce : ∀ members, Json.written? text = some (.object members) →
      ∀ f : Field, (members.map Prod.fst).count f.key ≤ 1) :
    ofText text = .ok r ↔ ofValue v = .ok r := by
  rw [Json.parse?_eq_map_written?] at hv
  obtain ⟨w, hw, rfl⟩ := Option.map_eq_some_iff.1 hv
  obtain ⟨reader, hrun, hfinish⟩ := Json.written?_eq_some_iff.1 hw
  have hparts : Reader.PartsOnce w := by
    rintro members rfl
    exact honce members hw
  rw [ofText, mapError_eq_ok_iff, ofValue_eq_ok_iff]
  exact Reader.Tracks.start.readFrom_eq_ok_iff Json.Reader.proper_start hrun hfinish hparts _

/-- **A rule is the same whether it is read from a text or from the value of the text.** If the text
is JSON and, where it is an object, gives no part of a rule twice, a rule is read directly from it
exactly if the same rule is read from its value; and every rule is read back in both ways from its
compact text. -/
theorem ofText_agrees :
    (∀ text v, Json.parse? text = some v →
      (∀ members, Json.written? text = some (.object members) →
        ∀ f : Field, (members.map Prod.fst).count f.key ≤ 1) →
      ∀ r, ofText text = .ok r ↔ ofValue v = .ok r) ∧
    ∀ r : Rule, ofText r.toValue.compact = .ok r ∧
      ∃ v, Json.parse? r.toValue.compact = some v ∧ ofValue v = .ok r := by
  refine ⟨fun text v hv honce r => ofText_eq_ok_iff hv honce, fun r => ?_⟩
  have hwritten := r.written?_compact
  have hparse : Json.parse? r.toValue.compact = some r.toValue := by
    rw [Json.parse?_eq_map_written?, hwritten, Option.map_some,
      Json.merged_of_keysDistinct r.keysDistinct_toValue]
  have honce : ∀ members, Json.written? r.toValue.compact = some (.object members) →
      ∀ f : Field, (members.map Prod.fst).count f.key ≤ 1 := by
    intro members hmembers f
    have hkeys : ∀ f : Field, ["name", "pattern", "emitter"].count f.key ≤ 1 := by
      intro f
      cases f <;> decide
    obtain rfl := Value.object.inj (Option.some.inj (hwritten.symm.trans hmembers))
    exact hkeys f
  exact ⟨(ofText_eq_ok_iff hparse honce).2 r.ofValue_toValue, r.toValue, hparse, r.ofValue_toValue⟩

/-- Members in any order, a key written with an escape, one member passed over with an object of its
own inside. -/
theorem ofText_agrees_among_others :
    ofText "\x7b\"x\":[1,\x7b\"name\":2\x7d],\"p\\u0061ttern\":\"P\",\"name\":\"N\"\x7d" =
      .ok ⟨"N", "P", none⟩ := by
  refine (ofText_agrees.1 _ (.object [("x", .array [.natural 1, .object [("name", .natural 2)]]),
    ("pattern", .string "P"), ("name", .string "N")]) rfl ?_ _).2 rfl
  intro members hmembers f
  have hkeys : ∀ f : Field, ["x", "pattern", "name"].count f.key ≤ 1 := by
    intro f
    cases f <;> decide
  cases hmembers
  exact hkeys f

end Rule

end RuleScript
