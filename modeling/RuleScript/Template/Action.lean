import RuleScript.Template.Error
import RuleScript.Template.Event
import RuleScript.Template.Scope

/-!
Actions on a scope. An action gives a result or fails, and either way leaves a scope and a log: what
was done before a failure stays done. `bind_of_ok` and `bind_of_error` say what two actions come to,
one after the other, and the monad laws hold.
-/

namespace RuleScript

open RuleScript.Json (Value)

/-- What an action comes to. -/
structure Outcome (α : Type) where
  result : Except TemplateError α
  scope : Scope
  log : List Event

/-- Something done to a scope. -/
def Action (α : Type) : Type := Scope → Outcome α

namespace Action

variable {α β : Type}

/-- Gives a result and does nothing else. -/
def done (a : α) : Action α := fun s => ⟨.ok a, s, []⟩

/-- One action after another; the second is not begun when the first has failed. -/
def andThen (first : Action α) (second : α → Action β) : Action β := fun s =>
  let o := first s
  match o.result with
  | .ok a =>
    let p := second a o.scope
    ⟨p.result, p.scope, o.log ++ p.log⟩
  | .error e => ⟨.error e, o.scope, o.log⟩

/-- An action with its result changed. -/
def mapResult (f : α → β) (a : Action α) : Action β := fun s =>
  let o := a s
  ⟨o.result.map f, o.scope, o.log⟩

instance : Monad Action where
  pure := done
  bind := andThen
  map := mapResult

theorem bind_of_ok {first : Action α} {second : α → Action β} {s t : Scope} {a : α}
    {log : List Event} (h : first s = ⟨.ok a, t, log⟩) :
    (first >>= second) s = ⟨(second a t).result, (second a t).scope, log ++ (second a t).log⟩ := by
  simp [bind, andThen, h]

theorem bind_of_error {first : Action α} {second : α → Action β} {s t : Scope}
    {e : TemplateError} {log : List Event} (h : first s = ⟨.error e, t, log⟩) :
    (first >>= second) s = ⟨.error e, t, log⟩ := by
  simp [bind, andThen, h]

theorem map_id (a : Action α) : id <$> a = a := by
  funext s
  rcases h : a s with ⟨e | x, t, log⟩ <;> simp [Functor.map, mapResult, Except.map, h]

theorem bind_pure (f : α → β) (a : Action α) : (a >>= fun x => pure (f x)) = f <$> a := by
  funext s
  rcases h : a s with ⟨e | x, t, log⟩ <;>
    simp [Functor.map, mapResult, Except.map, bind, andThen, pure, done, h]

theorem bind_bind {γ : Type} (a : Action α) (f : α → Action β) (g : β → Action γ) :
    a >>= f >>= g = a >>= fun x => f x >>= g := by
  funext s
  rcases h : a s with ⟨e | x, t, log⟩
  · simp [bind, andThen, h]
  · rcases hf : f x t with ⟨e | y, u, more⟩ <;>
      simp [bind, andThen, h, hf, List.append_assoc]

instance : LawfulMonad Action :=
  .mk' Action map_id (fun _ _ => rfl) bind_bind (fun _ _ => rfl) (fun _ _ => rfl)
    (fun _ _ => rfl) bind_pure (fun _ _ => rfl)

/-- Fails. -/
def fail (e : TemplateError) : Action α := fun s => ⟨.error e, s, []⟩

/-- Gives a result that may be a failure. -/
def ofExcept (result : Except TemplateError α) : Action α := fun s => ⟨result, s, []⟩

/-- Logs an event. -/
def log (e : Event) : Action Unit := fun s => ⟨.ok (), s, [e]⟩

/-- Does an action and gives its result, a failure included. -/
def attempt (a : Action α) : Action (Except TemplateError α) := fun s =>
  let o := a s
  ⟨.ok o.result, o.scope, o.log⟩

/-! ### The scope -/

/-- The number of frames. -/
def depth : Action Nat := fun s => ⟨.ok s.depth, s, []⟩

/-- The value of a key. -/
def get (key : String) : Action Value := fun s =>
  match s.get? key with
  | some v => ⟨.ok v, s, []⟩
  | none => ⟨.error (.uninitialized key), s, []⟩

/-- Binds a key in the innermost frame. -/
def add (key : String) (value : Value) : Action Unit := fun s => ⟨.ok (), s.add key value, []⟩

/-- Gives the visible binding of a key a new value. -/
def modify (key : String) (value : Value) : Action Unit := fun s =>
  match s.modify? key value with
  | some changed => ⟨.ok (), changed, []⟩
  | none => ⟨.error (.uninitialized key), s, []⟩

/-- Enters a frame. -/
def push : Action Unit := fun s => ⟨.ok (), s.push, [.enteredFrame s.push.depth]⟩

/-- Leaves the innermost frame. -/
def pop : Action Unit := fun s =>
  match s.pop? with
  | some outer => ⟨.ok (), outer, [.leftFrame outer.depth]⟩
  | none => ⟨.error .scopeUnderflow, s, []⟩

end Action

end RuleScript
