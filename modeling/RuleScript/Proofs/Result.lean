import Mathlib.Data.List.Forall2
import Mathlib.Tactic.Common

/-!
When a result that was changed, or used for another one, is a success or a failure.
-/

namespace RuleScript

variable {α β ε : Type} {r : Except ε α} {e : ε}

/-- A changed result is a success only where there was one. -/
lemma map_eq_ok_iff {f : α → β} {y : β} : r.map f = .ok y ↔ ∃ x, r = .ok x ∧ f x = y := by
  cases r <;> simp [Except.map]

/-- A result is changed only where there is one. -/
lemma map_eq_error_iff {f : α → β} : r.map f = .error e ↔ r = .error e := by
  cases r <;> simp [Except.map]

/-- With another failure in the place of each, a result is a success where it was one. -/
lemma mapError_eq_ok_iff {ε' : Type} {f : ε → ε'} {x : α} :
    r.mapError f = .ok x ↔ r = .ok x := by
  cases r <;> simp [Except.mapError]

/-- With another failure in the place of each, a result is a failure where it was one. -/
lemma mapError_eq_error_iff {ε' : Type} {f : ε → ε'} {e' : ε'} :
    r.mapError f = .error e' ↔ ∃ e, r = .error e ∧ f e = e' := by
  cases r <;> simp [Except.mapError]

/-- Two results in a row are a success where both are. -/
lemma bind_eq_ok_iff {f : α → Except ε β} {y : β} :
    (r >>= f) = .ok y ↔ ∃ x, r = .ok x ∧ f x = .ok y := by
  cases r <;> simp [bind, Except.bind]

/-- Two results in a row are a failure where the first is, or the second behind a success. -/
lemma bind_eq_error_iff {f : α → Except ε β} :
    (r >>= f) = .error e ↔ r = .error e ∨ ∃ x, r = .ok x ∧ f x = .error e := by
  cases r <;> simp [bind, Except.bind]

/-- A row of results is a success where each of them is, with the row of what they give. -/
lemma mapM_eq_ok_iff {f : α → Except ε β} {xs : List α} {ys : List β} :
    xs.mapM f = .ok ys ↔ List.Forall₂ (fun x y => f x = .ok y) xs ys := by
  induction xs generalizing ys with
  | nil => cases ys <;> simp [pure, Except.pure]
  | cons x xs ih =>
      rw [List.mapM_cons, bind_eq_ok_iff, List.forall₂_cons_left_iff]
      simp only [bind_eq_ok_iff, ih, pure, Except.pure, Except.ok.injEq]
      constructor
      · rintro ⟨y, hy, zs, hzs, rfl⟩
        exact ⟨y, zs, hy, hzs, rfl⟩
      · rintro ⟨y, zs, hy, hzs, rfl⟩
        exact ⟨y, hy, zs, hzs, rfl⟩

end RuleScript
