import RuleScript.Proofs.Template.Respects

/-!
Scopes that share their inner frames. `Over Q n s t` says that two scopes have the same `n`
innermost frames, over outer ones that `Q` relates.

* `visible?_append`, `overwrite?_append`: what is found and written in inner frames over outer ones;
* `Footing`: the outer frames cannot be told apart by the key of the table or of the counter;
* `alike_over`: over such outer frames the scopes cannot be told apart either, however many inner
  frames they share, and entering and leaving keep it so (`Over.push`, `Over.pop`).
-/

namespace RuleScript

open RuleScript.Json (Value)

namespace Scope

variable {s t u v : Scope} {key : String} {value : Value} {n : ℕ}
  {Q : List Bindings → List Bindings → Prop} {x y : List Bindings}

/-! ### Inner frames over outer ones -/

/-- What the inner frames do not bind is looked for in the outer ones. -/
lemma visible?_append (key : String) (inner outer : List Bindings) :
    visible? key (inner ++ outer) = (visible? key inner).or (visible? key outer) := by
  induction inner with
  | nil => rfl
  | cons frame inner ih => rw [List.cons_append, visible?, visible?, ih, Option.or_assoc]

/-- What the inner frames do not bind is written in the outer ones. -/
lemma overwrite?_append (key : String) (value : Value) (inner outer : List Bindings) :
    overwrite? key value (inner ++ outer) =
      ((overwrite? key value inner).map (· ++ outer)).or
        ((overwrite? key value outer).map (inner ++ ·)) := by
  induction inner with
  | nil => simp [overwrite?]
  | cons frame inner ih =>
      rw [List.cons_append, overwrite?, overwrite?]
      split
      · rfl
      · rw [ih, Option.map_or, Option.map_map, Option.map_map, Option.map_map]
        rfl

lemma map_frames_modify? (s : Scope) (key : String) (value : Value) :
    (s.modify? key value).map frames = overwrite? key value s.frames := by
  cases h : s.modify? key value with
  | some t => exact (modify?_eq_some_iff.1 h).symm
  | none =>
      rw [modify?_eq_none_iff] at h
      exact ((overwrite?_eq_none_iff key value s.frames).2 h).symm

/-- Leaving takes away the innermost frame and no other. -/
lemma frames_of_pop? (h : s.pop? = some t) : s.frames = s.top :: t.frames := by
  obtain ⟨top, below⟩ := s
  cases below with
  | nil => simp [pop?] at h
  | cons frame outer =>
      obtain rfl := Option.some.inj h
      rfl

/-- What stands below the innermost frame is what is left. -/
lemma pop?_of_frames_eq {frame : Bindings} (h : s.frames = frame :: t.frames) :
    s.pop? = some t := by
  obtain ⟨top, below⟩ := s
  obtain ⟨-, rfl⟩ := List.cons.inj h
  rfl

/-! ### Outer frames that cannot be told apart -/

/-- The outer frames cannot be told apart by the key of the table or of the counter: it means the
same in both, and a write to it leaves them related, or finds no binding in either. -/
structure Footing (Q : List Bindings → List Bindings → Prop) : Prop where
  visible? : ∀ {x y : List Bindings} (c : Cell), Q x y → visible? c.key y = visible? c.key x
  overwrite? : ∀ {x y : List Bindings} (c : Cell) (value : Value), Q x y →
    Option.Rel Q (overwrite? c.key value x) (overwrite? c.key value y)

/-- The scopes have the same `n` innermost frames, over outer frames that are related. -/
def Over (Q : List Bindings → List Bindings → Prop) (n : ℕ) (s t : Scope) : Prop :=
  ∃ inner x y, inner.length = n ∧ Q x y ∧ s.frames = inner ++ x ∧ t.frames = inner ++ y

namespace Over

lemma of_frames (h : Q s.frames t.frames) : Over Q 0 s t := ⟨[], _, _, rfl, h, rfl, rfl⟩

lemma frames (h : Over Q 0 s t) : Q s.frames t.frames := by
  obtain ⟨inner, x, y, hlength, hQ, hs, ht⟩ := h
  obtain rfl := List.length_eq_zero_iff.1 hlength
  rw [hs, ht]
  exact hQ

lemma push (h : Over Q n s t) : Over Q (n + 1) s.push t.push := by
  obtain ⟨inner, x, y, rfl, hQ, hs, ht⟩ := h
  refine ⟨[] :: inner, x, y, rfl, hQ, ?_, ?_⟩
  · rw [List.cons_append, ← hs]
    rfl
  · rw [List.cons_append, ← ht]
    rfl

/-- A shared frame can be left in both scopes. -/
lemma pop (h : Over Q (n + 1) s t) (hu : s.pop? = some u) (hv : t.pop? = some v) :
    Over Q n u v := by
  obtain ⟨inner, x, y, hlength, hQ, hs, ht⟩ := h
  cases inner with
  | nil => cases hlength
  | cons frame inner =>
      rw [frames_of_pop? hu] at hs
      rw [frames_of_pop? hv] at ht
      obtain ⟨-, hs⟩ := List.cons.inj hs
      obtain ⟨-, ht⟩ := List.cons.inj ht
      exact ⟨inner, x, y, Nat.succ.inj hlength, hQ, hs, ht⟩

/-- A key is bound in the innermost frame, which is shared. -/
lemma add (h : Over Q (n + 1) s t) (key : String) (value : Value) :
    Over Q (n + 1) (s.add key value) (t.add key value) := by
  obtain ⟨inner, x, y, hlength, hQ, hs, ht⟩ := h
  cases inner with
  | nil => cases hlength
  | cons frame inner =>
      obtain ⟨hstop, hsbelow⟩ := List.cons.inj hs
      obtain ⟨httop, htbelow⟩ := List.cons.inj ht
      refine ⟨Entries.set key value frame :: inner, x, y, hlength, hQ, ?_, ?_⟩
      · simp [Scope.frames, Scope.add, hstop, hsbelow]
      · simp [Scope.frames, Scope.add, httop, htbelow]

end Over

/-- Over outer frames that cannot be told apart, scopes cannot be told apart either. -/
lemma alike_over (hQ : Footing Q) (n : ℕ) (c : Cell) : Alike (Over Q n) c.key where
  get? := by
    rintro s t ⟨inner, x, y, -, hxy, hs, ht⟩
    rw [get?, get?, hs, ht, visible?_append, visible?_append, hQ.visible? c hxy]
  modify? := by
    rintro s t value ⟨inner, x, y, hlength, hxy, hs, ht⟩
    have hmodifyS := map_frames_modify? s c.key value
    have hmodifyT := map_frames_modify? t c.key value
    rw [hs, overwrite?_append] at hmodifyS
    rw [ht, overwrite?_append] at hmodifyT
    generalize s.modify? c.key value = s', t.modify? c.key value = t' at hmodifyS hmodifyT
    cases hinner : overwrite? c.key value inner with
    | some written =>
        -- the write stays in the shared frames
        rw [hinner] at hmodifyS hmodifyT
        obtain ⟨u, rfl, hu⟩ := Option.map_eq_some_iff.1 hmodifyS
        obtain ⟨v, rfl, hv⟩ := Option.map_eq_some_iff.1 hmodifyT
        have hwritten := length_of_overwrite? hinner
        exact .some ⟨written, x, y, hwritten.trans hlength, hxy, hu, hv⟩
    | none =>
        have hrel := hQ.overwrite? c value hxy
        rw [hinner] at hmodifyS hmodifyT
        generalize overwrite? c.key value x = x', overwrite? c.key value y = y'
          at hrel hmodifyS hmodifyT
        cases hrel with
        | none =>
            obtain rfl := Option.map_eq_none_iff.1 hmodifyS
            obtain rfl := Option.map_eq_none_iff.1 hmodifyT
            exact .none
        | some hxy' =>
            obtain ⟨u, rfl, hu⟩ := Option.map_eq_some_iff.1 hmodifyS
            obtain ⟨v, rfl, hv⟩ := Option.map_eq_some_iff.1 hmodifyT
            exact .some ⟨inner, _, _, hlength, hxy', hu, hv⟩

end Scope

end RuleScript
