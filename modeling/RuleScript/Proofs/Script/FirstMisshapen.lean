import RuleScript.Proofs.Script.Exact

/-!
Which error a value that is no script is rejected with: that of the first misshapen value in the place
of a step, in document order.

* `Place`: a place among the values of a script, told by what stands in front of it; `Place.Holds`
  says which value stands there, `Place.Passed` which ones come before it, and `Place.IsFirst` that
  none of these is misshapen but the one in the place is;
* `exists_isFirst_of_error`: where values are rejected there is such a place;
* `ofValues_of_isFirst`: the value in it decides the error by itself, at whatever depth it stands and
  whatever comes behind it;
* `ofValue_error_of_first`: both together, with the place being the only one.
-/

namespace RuleScript.Script

open RuleScript.Json (Value)

/-! ### Places -/

/-- A place among the values of a script, told by what stands in front of it. -/
inductive Place where
  /-- The first one. -/
  | here
  /-- Behind a value, at a place among those that follow it. -/
  | behind (first : Value) (place : Place)
  /-- In a nested scope, at a place among its values. -/
  | inside (place : Place)

namespace Place

/-- The value stands in the place among the given ones. What comes behind it is anything, in every
array that is open there. -/
inductive Holds (w : Value) : Place → List Value → Prop
  | here (rest : List Value) : Holds w here (w :: rest)
  | behind {place : Place} {rest : List Value} (first : Value) (h : Holds w place rest) :
    Holds w (behind first place) (first :: rest)
  | inside {place : Place} {inner : List Value} (rest : List Value) (h : Holds w place inner) :
    Holds w (inside place) (.object [(Step.scopeKey, .array inner)] :: rest)

/-- The value comes before the place in document order: it is a value that the place is behind, or
stands in the place of a step inside of one. -/
inductive Passed (u : Value) : Place → Prop
  | first {v : Value} {place : Place} (stands : StandsIn u [v]) : Passed u (behind v place)
  | behind {place : Place} (v : Value) (h : Passed u place) : Passed u (behind v place)
  | inside {place : Place} (h : Passed u place) : Passed u (inside place)

/-- The value in the place is misshapen, and no value before it is. -/
structure IsFirst (place : Place) (w : Value) (values : List Value) : Prop where
  holds : place.Holds w values
  misshapen : Misshapen w
  before : ∀ u, place.Passed u → ¬ Misshapen u

variable {w w' : Value} {place place' : Place} {values : List Value}

/-- The value in a place stands in the place of a step. -/
lemma Holds.standsIn (h : place.Holds w values) : StandsIn w values := by
  induction h with
  | here rest => exact .here List.mem_cons_self
  | behind first _ ih => exact ih.cons first
  | inside rest _ ih => exact .inside List.mem_cons_self ih

lemma isFirst_here (rest : List Value) (hw : Misshapen w) : here.IsFirst w (w :: rest) where
  holds := .here rest
  misshapen := hw
  before u hu := by cases hu

/-- Behind a value in which nothing is misshapen the search goes on. -/
lemma IsFirst.behind {rest : List Value} {first : Value} (h : place.IsFirst w rest)
    (hfirst : ∀ u, StandsIn u [first] → ¬ Misshapen u) :
    (Place.behind first place).IsFirst w (first :: rest) where
  holds := .behind first h.holds
  misshapen := h.misshapen
  before u hu := by
    rcases hu with stands | ⟨_, hu⟩
    · exact hfirst u stands
    · exact h.before u hu

/-- A nested scope is entered. -/
lemma IsFirst.inside {inner : List Value} (h : place.IsFirst w inner) (rest : List Value) :
    (Place.inside place).IsFirst w (.object [(Step.scopeKey, .array inner)] :: rest) where
  holds := .inside rest h.holds
  misshapen := h.misshapen
  before u hu := by
    cases hu with
    | inside hu => exact h.before u hu

/-- An object that is written as a nested scope is not misshapen, whatever stands in it. -/
lemma not_misshapen_scope (inner : List Value) :
    ¬ Misshapen (.object [(Step.scopeKey, .array inner)]) := by
  intro h
  cases h with
  | notSingleKey isNot => exact isNot rfl
  | scopeNotArray isNot => exact isNot inner rfl

/-- There is at most one first misshapen value. -/
lemma IsFirst.unique (h : place.IsFirst w values) (h' : place'.IsFirst w' values) :
    place' = place ∧ w' = w := by
  obtain ⟨holds, misshapen, before⟩ := h
  obtain ⟨holds', misshapen', before'⟩ := h'
  induction holds generalizing place' with
  | here rest =>
      cases holds' with
      | here => exact ⟨rfl, rfl⟩
      | behind => exact absurd misshapen (before' _ (.first (.here List.mem_cons_self)))
      | inside => exact absurd misshapen (not_misshapen_scope _)
  | @behind place rest first holds ih =>
      cases holds' with
      | here => exact absurd misshapen' (before _ (.first (.here List.mem_cons_self)))
      | behind _ holds' =>
          obtain ⟨rfl, rfl⟩ := ih (fun u hu => before u (.behind first hu)) holds'
            (fun u hu => before' u (.behind first hu))
          exact ⟨rfl, rfl⟩
      | inside _ holds' =>
          exact absurd misshapen'
            (before _ (.first (.inside List.mem_cons_self holds'.standsIn)))
  | @inside place inner rest holds ih =>
      cases holds' with
      | here => exact absurd misshapen' (not_misshapen_scope _)
      | behind =>
          exact absurd misshapen
            (before' _ (.first (.inside List.mem_cons_self holds.standsIn)))
      | inside _ holds' =>
          obtain ⟨rfl, rfl⟩ := ih (fun u hu => before u (.inside hu)) holds'
            (fun u hu => before' u (.inside hu))
          exact ⟨rfl, rfl⟩

end Place

/-! ### The error of the first misshapen value -/

variable {v w : Value} {values : List Value} {e : StepError}

lemma ofValues_singleton (w : Value) : ofValues [w] = (Step.ofValue w).map ([·]) := by
  rw [ofValues]
  cases Step.ofValue w <;> rfl

/-- A misshapen value is rejected. -/
lemma exists_error_of_misshapen (h : Misshapen w) : ∃ e, Step.ofValue w = .error e := by
  cases hw : Step.ofValue w with
  | error e => exact ⟨e, rfl⟩
  | ok step =>
      have hvalues : ofValues [w] = .ok [step] := by
        rw [ofValues_singleton, hw]
        rfl
      have hstands : StandsIn w (toValues [step]) := by
        rw [← eq_toValues_of_ofValues hvalues]
        exact .here List.mem_cons_self
      exact absurd h (not_misshapen_of_standsIn hstands)

/-- A value in which nothing is misshapen is read. -/
lemma exists_ok_of_sound (h : ∀ u, StandsIn u [v] → ¬ Misshapen u) :
    ∃ step, Step.ofValue v = .ok step := by
  cases hv : Step.ofValue v with
  | ok step => exact ⟨step, rfl⟩
  | error e =>
      have hvalues : ofValues [v] = .error e := by
        rw [ofValues_singleton, hv]
        rfl
      obtain ⟨u, hstands, hbad⟩ := exists_misshapen_of_ofValues_error hvalues
      exact absurd hbad (h u hstands)

/-- Nothing is misshapen in a value that is read. -/
lemma not_misshapen_of_ok {step : Step} (h : Step.ofValue v = .ok step) {u : Value}
    (hu : StandsIn u [v]) : ¬ Misshapen u := by
  have hvalues : ofValues [v] = .ok [step] := by
    rw [ofValues_singleton, h]
    rfl
  rw [eq_toValues_of_ofValues hvalues] at hu
  exact not_misshapen_of_standsIn hu

/-- Values are rejected with the error of the value in a place before which nothing is misshapen. -/
lemma ofValues_of_holds {place : Place} (hholds : place.Holds w values)
    (hbefore : ∀ u, place.Passed u → ¬ Misshapen u) (hw : Step.ofValue w = .error e) :
    ofValues values = .error e := by
  induction hholds with
  | here rest =>
      rw [ofValues, hw]
      rfl
  | @behind place rest first _ ih =>
      obtain ⟨step, hstep⟩ := exists_ok_of_sound fun u hu => hbefore u (.first hu)
      have hrest := ih fun u hu => hbefore u (.behind first hu)
      rw [ofValues, hstep, hrest]
      rfl
  | @inside place inner rest _ ih =>
      have hinner := ih fun u hu => hbefore u (.inside hu)
      have hscope : Step.ofValue (.object [(Step.scopeKey, .array inner)]) = .error e := by
        rw [Step.ofValue, if_pos rfl, hinner]
        rfl
      rw [ofValues, hscope]
      rfl

/-- Whatever values have the first misshapen one in the same place are rejected as it is alone. -/
lemma ofValues_of_isFirst {place : Place} (h : place.IsFirst w values) :
    ofValues values = ofValues [w] := by
  obtain ⟨e, he⟩ := exists_error_of_misshapen h.misshapen
  rw [ofValues_of_holds h.holds h.before he, ofValues_singleton, he]
  rfl

/-- Where values are rejected, one of them is the first misshapen one. -/
lemma exists_isFirst_of_error (h : ofValues values = .error e) :
    ∃ (place : Place) (w : Value), place.IsFirst w values := by
  induction values using indValues generalizing e with
  | nil => cases h
  | cons v rest ihinner ihrest =>
      rw [ofValues] at h
      rcases bind_eq_error_iff.1 h with hstep | ⟨step, hstep, h⟩
      · -- the first value is rejected, itself or for what stands in it
        rcases Step.ofValue_error_cases hstep with hbad | ⟨inner, rfl, hinner⟩
        · exact ⟨.here, v, Place.isFirst_here rest hbad⟩
        · obtain ⟨place, w, hfirst⟩ := ihinner inner rfl hinner
          exact ⟨.inside place, w, hfirst.inside rest⟩
      · rcases bind_eq_error_iff.1 h with hrest | ⟨steps, -, h⟩
        · obtain ⟨place, w, hfirst⟩ := ihrest hrest
          exact ⟨.behind v place, w, hfirst.behind fun u hu => not_misshapen_of_ok hstep hu⟩
        · cases h

/-- **The first misshapen value is reported.** If an array is rejected as a script, then exactly one
misshapen value in the place of a step comes before all others, in document order. The error is the
one with which that value is rejected as the only one of a script, and every array with the same
values up to that one is rejected with it, whatever comes behind it in the arrays that are open. -/
theorem ofValue_error_of_first (items : List Value) (e : StepError)
    (h : ofValue (.array items) = .error e) :
    ∃ (place : Place) (w : Value), place.IsFirst w items ∧
      (∀ (place' : Place) (w' : Value), place'.IsFirst w' items → place' = place ∧ w' = w) ∧
      ofValue (.array [w]) = .error e ∧
      ∀ others : List Value, place.Holds w others → ofValue (.array others) = .error e := by
  obtain ⟨place, w, hfirst⟩ := exists_isFirst_of_error h
  have halone : ofValues [w] = .error e := (ofValues_of_isFirst hfirst).symm.trans h
  refine ⟨place, w, hfirst, fun _ _ hother => hfirst.unique hother, halone, ?_⟩
  intro others hothers
  have hothersFirst : place.IsFirst w others := ⟨hothers, hfirst.misshapen, hfirst.before⟩
  exact (ofValues_of_isFirst hothersFirst).trans halone

/-- A wrong argument in a nested scope, with wrong values behind it both inside and outside. -/
theorem ofValue_error_of_first_nested :
    ofValue (.array [.object [("scope", .array [.array [.string "genvar"],
      .array [.string "addRule", .null], .bool true])], .array []]) =
        .error (.argumentNotString "addRule" .null) ∧
    ∃ (place : Place) (w : Value), place.IsFirst w [.object [("scope", .array [
        .array [.string "genvar"], .array [.string "addRule", .null], .bool true])], .array []] ∧
      (∀ (place' : Place) (w' : Value), place'.IsFirst w' [.object [("scope", .array [
        .array [.string "genvar"], .array [.string "addRule", .null], .bool true])], .array []] →
          place' = place ∧ w' = w) ∧
      ofValue (.array [w]) = .error (.argumentNotString "addRule" .null) ∧
      ∀ others : List Value, place.Holds w others →
        ofValue (.array others) = .error (.argumentNotString "addRule" .null) :=
  ⟨rfl, ofValue_error_of_first _ _ rfl⟩

end RuleScript.Script
