import Mathlib.Tactic.Common
import RuleScript.Template.Scope

/-!
The bindings of a scope one by one: `binding? s n key` is what the frame `n` steps out from the
innermost one binds a key to, and `nearest? s key` tells in which frame the visible binding stands.

* `binding?_add`, `binding?_of_modify?`: a write changes one binding, that of the innermost frame or
  the nearest one, and no other;
* `SameOutside`: two scopes have the same frames and agree on every binding but, at most, one;
  `sameOutside_add` and `sameOutside_of_modify?` say so of the two ways to write.
-/

namespace RuleScript.Scope

open RuleScript.Json (Value)

variable {s t u : Scope} {key other : String} {value : Value} {n : ℕ}

/-- The value of a key in the frame `n` steps out from the innermost one. -/
def binding? (s : Scope) (n : ℕ) (key : String) : Option Value :=
  s.frames[n]?.bind (Entries.get? key)

/-- How many steps out the innermost frame stands that binds a key. -/
def nearest? (s : Scope) (key : String) : Option ℕ :=
  s.frames.findIdx? fun frame => (Entries.get? key frame).isSome

/-! ### Entering, leaving and adding -/

@[simp] lemma binding?_zero (s : Scope) (key : String) :
    s.binding? 0 key = Entries.get? key s.top := rfl

lemma binding?_succ (s : Scope) (n : ℕ) (key : String) :
    s.binding? (n + 1) key = s.below[n]?.bind (Entries.get? key) := rfl

@[simp] lemma binding?_push_zero (s : Scope) (key : String) : s.push.binding? 0 key = none := rfl

@[simp] lemma binding?_push_succ (s : Scope) (n : ℕ) (key : String) :
    s.push.binding? (n + 1) key = s.binding? n key := rfl

/-- Leaving a frame brings every other one a step nearer. -/
lemma binding?_of_pop? (h : s.pop? = some t) (n : ℕ) (key : String) :
    t.binding? n key = s.binding? (n + 1) key := by
  obtain ⟨top, below⟩ := s
  cases below with
  | nil => simp [pop?] at h
  | cons frame outer =>
      obtain rfl := Option.some.inj h
      rfl

lemma depth_of_pop? (h : s.pop? = some t) : s.depth = t.depth + 1 := by
  obtain ⟨top, below⟩ := s
  cases below with
  | nil => simp [pop?] at h
  | cons frame outer =>
      obtain rfl := Option.some.inj h
      rfl

/-- A frame that was entered can be left, back to as many frames as before, as long as none has been
lost or gained on the way. -/
lemma exists_pop?_of_depth_eq (h : t.depth = s.push.depth) :
    ∃ u, t.pop? = some u ∧ u.depth = s.depth := by
  have hpos := s.depth_pos
  rw [depth_push] at h
  cases hpop : t.pop? with
  | none =>
      rw [pop?_eq_none_iff] at hpop
      omega
  | some u =>
      have hu := depth_of_pop? hpop
      exact ⟨u, rfl, by omega⟩

/-- Adding writes one binding of the innermost frame. -/
lemma binding?_add (s : Scope) (key other : String) (value : Value) (n : ℕ) :
    (s.add key value).binding? n other =
      if n = 0 ∧ other = key then some value else s.binding? n other := by
  cases n with
  | zero =>
      by_cases h : other = key
      · simp [h, add]
      · simp [h, add, Entries.get?_set_of_ne h]
  | succ n => simp [binding?_succ, add]

/-! ### The nearest binding -/

/-- The nearest binding is there, and no nearer frame binds the key. -/
lemma nearest?_eq_some_iff (s : Scope) (key : String) (n : ℕ) :
    s.nearest? key = some n ↔
      (s.binding? n key).isSome ∧ ∀ m < n, s.binding? m key = none := by
  rw [nearest?, List.findIdx?_eq_some_iff_getElem]
  constructor
  · rintro ⟨hn, hp, hbefore⟩
    refine ⟨by simpa [binding?, hn] using hp, fun m hm => ?_⟩
    have hlt : m < s.frames.length := Nat.lt_trans hm hn
    simpa [binding?, hlt] using hbefore m hm
  · rintro ⟨hsome, hbefore⟩
    have hn : n < s.frames.length := by
      by_contra hge
      rw [binding?, List.getElem?_eq_none (Nat.not_lt.mp hge)] at hsome
      simp at hsome
    refine ⟨hn, by simpa [binding?, hn] using hsome, fun m hm => ?_⟩
    have hlt : m < s.frames.length := Nat.lt_trans hm hn
    simpa [binding?, hlt] using hbefore m hm

/-- Overwriting changes the value in the first frame that binds the key. -/
lemma getElem?_of_overwrite? {before after : List Bindings}
    (h : overwrite? key value before = some after) :
    ∃ n, (before.findIdx? fun frame => (Entries.get? key frame).isSome) = some n ∧
      ∀ m : ℕ, after[m]? =
        if m = n then before[m]?.map (Entries.set key value) else before[m]? := by
  induction before generalizing after with
  | nil => simp [overwrite?] at h
  | cons frame outer ih =>
      rw [overwrite?] at h
      split at h
      · next hbound =>
        obtain rfl := Option.some.inj h
        refine ⟨0, by simp [List.findIdx?_cons, hbound], fun m => ?_⟩
        cases m <;> simp
      · next hfree =>
        obtain ⟨changed, hc, rfl⟩ := Option.map_eq_some_iff.1 h
        obtain ⟨n, hn, hm⟩ := ih hc
        refine ⟨n + 1, by simp [List.findIdx?_cons, hfree, hn], fun m => ?_⟩
        cases m with
        | zero => simp
        | succ m => simpa using hm m

/-- Modifying writes the nearest binding of the key. -/
lemma binding?_of_modify? (h : s.modify? key value = some t) :
    ∃ n, s.nearest? key = some n ∧ ∀ m other, t.binding? m other =
      if m = n ∧ other = key then some value else s.binding? m other := by
  obtain ⟨n, hn, hframes⟩ := getElem?_of_overwrite? (modify?_eq_some_iff.1 h)
  refine ⟨n, hn, fun m other => ?_⟩
  have hsome := ((nearest?_eq_some_iff s key n).1 hn).1
  rw [binding?, hframes m]
  by_cases hm : m = n
  · subst hm
    by_cases ho : other = key
    · subst ho
      cases hframe : s.frames[m]? with
      | none => simp [binding?, hframe] at hsome
      | some frame => simp
    · cases hframe : s.frames[m]? <;> simp [binding?, hframe, ho, Entries.get?_set_of_ne ho]
  · simp [hm, binding?]

/-- Modifying binds no key anew and unbinds none. -/
lemma isSome_binding?_of_modify? (h : s.modify? key value = some t) (m : ℕ) (other : String) :
    (t.binding? m other).isSome = (s.binding? m other).isSome := by
  obtain ⟨n, hn, hbinding⟩ := binding?_of_modify? h
  rw [hbinding]
  split
  · next hm =>
    obtain ⟨rfl, rfl⟩ := hm
    rw [((nearest?_eq_some_iff s other m).1 hn).1]
    rfl
  · rfl

/-- Writing the value that a key has changes nothing. -/
lemma modify?_of_get? (h : s.get? key = some value) : s.modify? key value = some s := by
  have hlist : ∀ frames : List Bindings, visible? key frames = some value →
      overwrite? key value frames = some frames := by
    intro frames
    induction frames with
    | nil => simp [visible?]
    | cons frame outer ih =>
        intro hvisible
        cases hframe : Entries.get? key frame with
        | none =>
            rw [visible?, hframe, Option.none_or] at hvisible
            simp [overwrite?, hframe, ih hvisible]
        | some v =>
            rw [visible?, hframe, Option.some_or] at hvisible
            obtain rfl := Option.some.inj hvisible
            simp [overwrite?, hframe, Entries.set_of_get? hframe]
  exact modify?_eq_some_iff.2 (hlist s.frames h)

/-! ### Agreeing but for one binding -/

/-- The scopes have the same number of frames, and every binding outside the given place, a frame
and a key, is the same in both. -/
structure SameOutside (place : Option (ℕ × String)) (s t : Scope) : Prop where
  depth : t.depth = s.depth
  binding : ∀ n key, place ≠ some (n, key) → t.binding? n key = s.binding? n key

lemma SameOutside.refl (place : Option (ℕ × String)) (s : Scope) : SameOutside place s s :=
  ⟨rfl, fun _ _ _ => rfl⟩

lemma sameOutside_add (s : Scope) (key : String) (value : Value) :
    SameOutside (some (0, key)) s (s.add key value) := by
  refine ⟨depth_add s key value, fun n other hne => ?_⟩
  rw [binding?_add, if_neg]
  rintro ⟨rfl, rfl⟩
  exact hne rfl

lemma sameOutside_of_modify? (h : s.modify? key value = some t) :
    SameOutside ((s.nearest? key).map (·, key)) s t := by
  obtain ⟨n, hn, hbinding⟩ := binding?_of_modify? h
  refine ⟨depth_of_modify? h, fun m other hne => ?_⟩
  rw [hbinding, if_neg]
  rintro ⟨rfl, rfl⟩
  exact hne (by rw [hn]; rfl)

end RuleScript.Scope
