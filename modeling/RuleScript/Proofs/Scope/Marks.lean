import Mathlib.Data.List.Forall2
import RuleScript.Proofs.Scope.Column

/-!
Which binding an operation finds, told from the operations before it alone.

A history is seen as moves: frames are entered and left, and a key is bound in the innermost frame.
A binding is known by its *mark*, the number of moves before it, and belongs to the frame that it
was made in; a later one in the same frame takes its place, and leaving the frame takes it away.
Histories are lists with the latest move first.

* `Move.marks`, `Move.owner?`: the marks of the frames that are still open, and the mark that is
  found by whatever looks for the key now;
* `Scope.Marked`: a scope binds the key in the marked frames and in no others, each time to a value
  that fits the mark; every operation keeps that (`enter`, `leave`, `bind`, `write`, `stay`);
* `Scope.Marked.rel_get?`: what the key means then.
-/

namespace RuleScript

open RuleScript.Json (Value)

/-- What an operation is for the bindings of one key. -/
inductive Move where
  /-- A frame is entered. -/
  | enter
  /-- The innermost frame is left. -/
  | leave
  /-- The key is bound in the innermost frame. -/
  | bind
  /-- Neither the frames nor the places where the key is bound change. -/
  | stay

namespace Move

/-- The marks of the open frames, the innermost first: for every frame how many moves there were
before the latest binding in it, if there was one. -/
def marks : List Move → List (Option ℕ)
  | [] => [none]
  | .enter :: past => none :: marks past
  | .leave :: past => (marks past).tail
  | .bind :: past => some past.length :: (marks past).tail
  | .stay :: past => marks past

/-- The mark of the innermost frame that has one. -/
def owner? (past : List Move) : Option ℕ := (marks past).findSome? id

/-- A mark stands for a move of the history. -/
lemma lt_of_mem_marks {past : List Move} {i : ℕ} (h : some i ∈ marks past) : i < past.length := by
  induction past with
  | nil => simp [marks] at h
  | cons move past ih =>
      rw [List.length_cons]
      cases move with
      | enter =>
          have hmem : some i ∈ marks past := by simpa [marks] using h
          exact Nat.lt_succ_of_lt (ih hmem)
      | leave => exact Nat.lt_succ_of_lt (ih (List.mem_of_mem_tail h))
      | bind =>
          rcases List.mem_cons.1 h with hi | hmem
          · rw [Option.some.inj hi]
            exact Nat.lt_succ_self _
          · exact Nat.lt_succ_of_lt (ih (List.mem_of_mem_tail hmem))
      | stay => exact Nat.lt_succ_of_lt (ih h)

lemma lt_of_owner? {past : List Move} {i : ℕ} (h : owner? past = some i) : i < past.length := by
  obtain ⟨mark, hmem, hmark⟩ := List.exists_of_findSome?_eq_some h
  exact lt_of_mem_marks (by rw [← hmark]; exact hmem)

/-- No two frames have the same mark. -/
lemma pairwise_marks (past : List Move) :
    (marks past).Pairwise fun inner outer => ∀ i, inner = some i → outer ≠ some i := by
  induction past with
  | nil => exact List.pairwise_singleton _ _
  | cons move past ih =>
      cases move with
      | enter => exact List.pairwise_cons.2 ⟨by simp, ih⟩
      | leave => exact ih.tail
      | bind =>
          refine List.pairwise_cons.2 ⟨?_, ih.tail⟩
          rintro outer houter i hi rfl
          obtain rfl := Option.some.inj hi
          exact absurd (lt_of_mem_marks (List.mem_of_mem_tail houter)) (Nat.lt_irrefl _)
      | stay => exact ih

end Move

/-! ### Lists of optional values side by side -/

section Rel

variable {α β : Type} {P Q : α → β → Prop} {xs : List (Option α)} {ys : List (Option β)}

lemma forall₂_tail {R : α → β → Prop} {as : List α} {bs : List β} (h : List.Forall₂ R as bs) :
    List.Forall₂ R as.tail bs.tail := by
  cases h with
  | nil => exact .nil
  | cons _ hrest => exact hrest

/-- The first values of two lists that go together go together. -/
lemma rel_findSome? (h : List.Forall₂ (Option.Rel P) xs ys) :
    Option.Rel P (xs.findSome? id) (ys.findSome? id) := by
  induction h with
  | nil => exact .none
  | cons hxy _ ih =>
      cases hxy with
      | none => exact ih
      | some hP => exact .some hP

/-- Changing the first value of one list, where the values of the other are all different, leaves
them together if the changed value goes with its partner. -/
lemma forall₂_setFirst (h : List.Forall₂ (Option.Rel P) xs ys)
    (hne : xs.Pairwise fun a b => ∀ x, a = some x → b ≠ some x) {y : β}
    (hfirst : ∀ x, xs.findSome? id = some x → Q x y)
    (hother : ∀ x z, xs.findSome? id ≠ some x → P x z → Q x z) :
    List.Forall₂ (Option.Rel Q) xs (setFirst y ys) := by
  induction h with
  | nil => exact .nil
  | @cons a b xs ys hab hrest ih =>
      obtain ⟨hhead, htail⟩ := List.pairwise_cons.1 hne
      cases hab with
      | none => exact .cons .none (ih htail hfirst hother)
      | @some x z hP =>
          refine .cons (.some (hfirst x rfl)) ?_
          have hmem : List.Forall₂ (fun a b => a ≠ some x ∧ Option.Rel P a b) xs ys :=
            (List.forall₂_and_left _ _).2 ⟨fun a ha => hhead a ha x rfl, hrest⟩
          refine hmem.imp ?_
          rintro a b ⟨hax, hab⟩
          cases hab with
          | none => exact .none
          | @some w v hP =>
              refine .some (hother w v ?_ hP)
              rintro heq
              exact hax (by rw [Option.some.inj heq])

end Rel

/-! ### Scopes and marks -/

namespace Scope

variable {s t : Scope} {key : String} {v : Value} {past : List Move} {P Q : ℕ → Value → Prop}

/-- The scope binds the key just in the frames that have a mark, each time to a value that fits the
mark. -/
def Marked (P : ℕ → Value → Prop) (key : String) (past : List Move) (s : Scope) : Prop :=
  List.Forall₂ (Option.Rel P) (Move.marks past) (s.column key)

lemma marked_root (P : ℕ → Value → Prop) (key : String) : Marked P key [] .root := by
  rw [Marked, Move.marks, column_root]
  exact .cons .none .nil

namespace Marked

/-- What fits the marks may be said in another way. -/
lemma imp (h : Marked P key past s) (hPQ : ∀ i v, i < past.length → P i v → Q i v) :
    Marked Q key past s := by
  have hlt : ∀ mark ∈ Move.marks past, ∀ i, mark = some i → i < past.length := by
    rintro mark hmark i rfl
    exact Move.lt_of_mem_marks hmark
  have hboth := (List.forall₂_and_left _ _).2 ⟨hlt, h⟩
  refine hboth.imp ?_
  rintro mark value ⟨hmark, hrel⟩
  cases hrel with
  | none => exact .none
  | some hP => exact .some (hPQ _ _ (hmark _ rfl) hP)

lemma enter (h : Marked P key past s) : Marked P key (.enter :: past) s.push := by
  rw [Marked, Move.marks, column_push]
  exact .cons .none h

lemma leave (h : Marked P key past s) (ht : s.pop? = some t) :
    Marked P key (.leave :: past) t := by
  rw [Marked, Move.marks, column_of_pop? ht]
  exact forall₂_tail h

lemma bind (h : Marked P key past s) (hv : P past.length v) :
    Marked P key (.bind :: past) (s.add key v) := by
  rw [Marked, Move.marks, column_add]
  exact .cons (.some hv) (forall₂_tail h)

lemma stay (h : Marked P key past s) (ht : t.column key = s.column key) :
    Marked P key (.stay :: past) t := by
  rw [Marked, Move.marks, ht]
  exact h

/-- Writing to the visible binding changes what fits the mark that is found, and no other mark. -/
lemma write (h : Marked P key past s) (ht : s.modify? key v = some t)
    (hfound : ∀ i, Move.owner? past = some i → Q i v)
    (hother : ∀ i w, Move.owner? past ≠ some i → P i w → Q i w) :
    Marked Q key (.stay :: past) t := by
  rw [Marked, Move.marks, column_of_modify? ht]
  exact forall₂_setFirst h (Move.pairwise_marks past) hfound hother

/-- The key means a value that fits the mark that is found, and nothing if no mark is found. -/
lemma rel_get? (h : Marked P key past s) : Option.Rel P (Move.owner? past) (s.get? key) := by
  rw [get?_eq_findSome?]
  exact rel_findSome? h

end Marked

end Scope

end RuleScript
