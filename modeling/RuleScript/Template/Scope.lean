import RuleScript.Entries
import RuleScript.Json.Value

/-!
Scopes: a root frame and the frames entered since, each a list of bindings. A key means its binding
in the innermost frame that has one. `add` binds in the innermost frame; `modify?` gives the binding
that is visible a new value, wherever it is.

* `pop?_push`, `pop?_eq_none_iff`: leaving undoes entering, and only the root frame cannot be left;
* `get?_add`, `get?_of_modify?`: what each key means after a binding has been written;
* `modify?_eq_none_iff`: a binding can be changed exactly when there is one.
-/

namespace RuleScript

open RuleScript.Json (Value)

/-- The bindings of one frame. -/
abbrev Bindings := List (String × Value)

/-- A stack of frames, the innermost first; there is always one. -/
structure Scope where
  top : Bindings
  below : List Bindings

namespace Scope

/-- The value of a key in the first of some frames that binds it. -/
def visible? (key : String) : List Bindings → Option Value
  | [] => none
  | frame :: outer => (Entries.get? key frame).or (visible? key outer)

/-- Gives a key a new value in the first of some frames that binds it. -/
def overwrite? (key : String) (value : Value) : List Bindings → Option (List Bindings)
  | [] => none
  | frame :: outer =>
    if (Entries.get? key frame).isSome then some (Entries.set key value frame :: outer)
    else (overwrite? key value outer).map (frame :: ·)

/-- The scope with nothing but an empty root frame. -/
def root : Scope := ⟨[], []⟩

/-- All frames, the innermost first. -/
def frames (s : Scope) : List Bindings := s.top :: s.below

/-- The number of frames, the root frame included. -/
def depth (s : Scope) : Nat := s.frames.length

/-- Enters a frame. -/
def push (s : Scope) : Scope := ⟨[], s.frames⟩

/-- Leaves the innermost frame, unless it is the root frame. -/
def pop? (s : Scope) : Option Scope :=
  match s.below with
  | [] => none
  | frame :: outer => some ⟨frame, outer⟩

/-- The value of a key. -/
def get? (s : Scope) (key : String) : Option Value := visible? key s.frames

/-- Binds a key in the innermost frame. -/
def add (s : Scope) (key : String) (value : Value) : Scope :=
  ⟨Entries.set key value s.top, s.below⟩

/-- Gives the visible binding of a key a new value. -/
def modify? (s : Scope) (key : String) (value : Value) : Option Scope :=
  if (Entries.get? key s.top).isSome then some ⟨Entries.set key value s.top, s.below⟩
  else (overwrite? key value s.below).map (⟨s.top, ·⟩)

/-! ### The number of frames -/

@[simp] theorem depth_root : root.depth = 1 := rfl

@[simp] theorem depth_push (s : Scope) : s.push.depth = s.depth + 1 := rfl

@[simp] theorem depth_add (s : Scope) (key : String) (value : Value) :
    (s.add key value).depth = s.depth := rfl

theorem depth_pos (s : Scope) : 0 < s.depth := Nat.succ_pos _

@[simp] theorem pop?_push (s : Scope) : s.push.pop? = some s := rfl

theorem pop?_eq_none_iff (s : Scope) : s.pop? = none ↔ s.depth = 1 := by
  obtain ⟨top, below⟩ := s
  cases below <;> simp [pop?, depth, frames]

theorem length_of_overwrite? {key : String} {value : Value} {before after : List Bindings}
    (h : overwrite? key value before = some after) : after.length = before.length := by
  induction before generalizing after with
  | nil => simp [overwrite?] at h
  | cons frame outer ih =>
      rw [overwrite?] at h
      split at h
      · simp [← Option.some.inj h]
      · obtain ⟨changed, hc, rfl⟩ := Option.map_eq_some_iff.1 h
        simp [ih hc]

/-- The frames after a write are those before it with one of them changed. -/
theorem modify?_eq_some_iff {s t : Scope} {key : String} {value : Value} :
    s.modify? key value = some t ↔ overwrite? key value s.frames = some t.frames := by
  obtain ⟨top, below⟩ := s
  obtain ⟨top', below'⟩ := t
  by_cases h : (Entries.get? key top).isSome
  · simp [modify?, frames, overwrite?, h]
  · simp [modify?, frames, overwrite?, h]

theorem depth_of_modify? {s t : Scope} {key : String} {value : Value}
    (h : s.modify? key value = some t) : t.depth = s.depth :=
  length_of_overwrite? (modify?_eq_some_iff.1 h)

/-! ### What keys mean -/

@[simp] theorem get?_root (key : String) : root.get? key = none := rfl

@[simp] theorem get?_push (s : Scope) (key : String) : s.push.get? key = s.get? key := rfl

/-- An added binding hides every other one of its key. -/
theorem get?_add (s : Scope) (key other : String) (value : Value) :
    (s.add key value).get? other = if other = key then some value else s.get? other := by
  by_cases h : other = key
  · simp [h, get?, add, frames, visible?]
  · simp [h, get?, add, frames, visible?, Entries.get?_set_of_ne h]

theorem visible?_of_overwrite? {key : String} {value : Value} {before after : List Bindings}
    (h : overwrite? key value before = some after) (other : String) :
    visible? other after = if other = key then some value else visible? other before := by
  induction before generalizing after with
  | nil => simp [overwrite?] at h
  | cons frame outer ih =>
      rw [overwrite?] at h
      split at h
      · obtain rfl := Option.some.inj h
        by_cases ho : other = key
        · simp [ho, visible?]
        · simp [ho, visible?, Entries.get?_set_of_ne ho]
      · obtain ⟨changed, hc, rfl⟩ := Option.map_eq_some_iff.1 h
        by_cases ho : other = key
        · simp_all [visible?]
        · simp [visible?, ih hc, ho]

/-- A changed binding has its new value, and no other key means anything else than before. -/
theorem get?_of_modify? {s t : Scope} {key : String} {value : Value}
    (h : s.modify? key value = some t) (other : String) :
    t.get? other = if other = key then some value else s.get? other :=
  visible?_of_overwrite? (modify?_eq_some_iff.1 h) other

theorem overwrite?_eq_none_iff (key : String) (value : Value) (frames : List Bindings) :
    overwrite? key value frames = none ↔ visible? key frames = none := by
  induction frames with
  | nil => simp [overwrite?, visible?]
  | cons frame outer ih =>
      cases h : Entries.get? key frame <;> simp [overwrite?, visible?, h, ih]

theorem modify?_eq_none_iff (s : Scope) (key : String) (value : Value) :
    s.modify? key value = none ↔ s.get? key = none := by
  obtain ⟨top, below⟩ := s
  cases h : Entries.get? key top <;>
    simp [modify?, get?, frames, visible?, h, overwrite?_eq_none_iff]

end Scope

end RuleScript
