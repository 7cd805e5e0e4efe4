import Mathlib.Tactic.Common
import RuleScript.Script.Render

/-!
A second interpreter of scripts, which keeps no JSON values: a frame holds a table of rules and a
counter as such, each only where it has been set up. It says in the plainest terms what a script
means; `Typed.render` gives the text, or why there is none, and the state that is left either way.

* `Frame`, `State`: what is kept, the innermost frame first;
* `State.changeNearest`: a change goes to the nearest frame that has what is to be changed;
* `Fault`: all that can go wrong, as neither a table nor a counter can be malformed.
-/

namespace RuleScript.Typed

/-! ### States -/

/-- What a frame keeps. -/
structure Frame where
  table : Option RuleTable
  counter : Option UInt64
deriving DecidableEq

/-- A stack of frames, the innermost first; there is always one. -/
structure State where
  top : Frame
  below : List Frame
deriving DecidableEq

/-- Changes the first of some frames that has what is to be changed. -/
def changeFirst (has : Frame → Bool) (change : Frame → Frame) : List Frame → List Frame
  | [] => []
  | f :: outer => if has f then change f :: outer else f :: changeFirst has change outer

namespace Frame

/-- The frame that keeps nothing yet. -/
def empty : Frame := ⟨none, none⟩

/-- The frame with a table in it. -/
def withTable (t : RuleTable) (f : Frame) : Frame := ⟨some t, f.counter⟩

/-- The frame with a counter in it. -/
def withCounter (n : UInt64) (f : Frame) : Frame := ⟨f.table, some n⟩

end Frame

namespace State

/-- The state with nothing but an empty root frame. -/
def root : State := ⟨.empty, []⟩

/-- All frames, the innermost first. -/
def frames (s : State) : List Frame := s.top :: s.below

/-- Enters a frame. -/
def push (s : State) : State := ⟨.empty, s.frames⟩

/-- Leaves the innermost frame; the root frame stays. -/
def pop (s : State) : State :=
  match s.below with
  | [] => s
  | f :: outer => ⟨f, outer⟩

/-- The table of the nearest frame that has one. -/
def table? (s : State) : Option RuleTable := s.frames.findSome? Frame.table

/-- The counter of the nearest frame that has one. -/
def counter? (s : State) : Option UInt64 := s.frames.findSome? Frame.counter

/-- Changes the innermost frame. -/
def changeTop (change : Frame → Frame) (s : State) : State := ⟨change s.top, s.below⟩

/-- Changes the nearest frame that has what is to be changed. -/
def changeNearest (has : Frame → Bool) (change : Frame → Frame) (s : State) : State :=
  if has s.top then s.changeTop change else ⟨s.top, changeFirst has change s.below⟩

/-- Puts a table in the place of the nearest one. -/
def setTable (t : RuleTable) : State → State :=
  changeNearest (fun f => f.table.isSome) (Frame.withTable t)

/-- Puts a counter in the place of the nearest one. -/
def setCounter (n : UInt64) : State → State :=
  changeNearest (fun f => f.counter.isSome) (Frame.withCounter n)

lemma frames_changeNearest (has : Frame → Bool) (change : Frame → Frame) (s : State) :
    (s.changeNearest has change).frames = changeFirst has change s.frames := by
  unfold changeNearest
  split <;> simp_all [frames, changeTop, changeFirst]

end State

/-! ### Faults -/

/-- Why a script fails. -/
inductive Fault where
  | noTable
  | noCounter
  | ruleNotFound (name : String)
  | exhausted
  | arityMismatch (function : TemplateFunction) (found : ℕ)

/-- A fault as template functions report it. -/
def Fault.error : Fault → TemplateError
  | .noTable => .uninitialized Tables.key
  | .noCounter => .uninitialized Counter.key
  | .ruleNotFound name => .ruleNotFound name
  | .exhausted => .malformed Counter.key .exhausted
  | .arityMismatch f found => .arityMismatch f found

/-! ### Running -/

/-- Does what a call asks for. -/
def run (c : Call) (s : State) : Except Fault String × State :=
  match c with
  | .createEmptyTables => (.ok "", s.changeTop (.withTable .empty))
  | .resetVariables => (.ok "", s.changeTop (.withCounter 0))
  | .addRule name pattern =>
    match s.table? with
    | some t => (.ok "", s.setTable (t.withRule name pattern))
    | none => (.error .noTable, s)
  | .addEmitter name emitter =>
    match s.table? with
    | some t =>
      match t.withEmitter? name emitter with
      | some t' => (.ok "", s.setTable t')
      | none => (.error (.ruleNotFound name), s)
    | none => (.error .noTable, s)
  | .constructPeg =>
    match s.table? with
    | some t => (.ok t.forms, s)
    | none => (.error .noTable, s)
  | .genVar =>
    match s.counter? with
    | some n =>
      if n.toNat + 1 < UInt64.size then (.ok (Counter.name n), s.setCounter (n + 1))
      else (.error .exhausted, s)
    | none => (.error .noCounter, s)

/-- Calls a function with some arguments. -/
def invoke (f : TemplateFunction) (args : List String) (s : State) : Except Fault String × State :=
  match Call.ofArgs? f args with
  | some c => run c s
  | none => (.error (.arityMismatch f args.length), s)

mutual

/-- The text of a step. -/
def renderStep : Step → State → Except Fault String × State
  | .text x, s => (.ok x, s)
  | .call f args, s => invoke f args s
  | .scope steps, s => ((render steps s.push).1, (render steps s.push).2.pop)

/-- The texts of some steps put together. -/
def render : List Step → State → Except Fault String × State
  | [], s => (.ok "", s)
  | step :: rest, s =>
    match renderStep step s with
    | (.ok x, t) => ((render rest t).1.map (x ++ ·), (render rest t).2)
    | (.error e, t) => (.error e, t)

end

/-- Renders scripts one after another, each on the state that the one before it has left, be it to
its end or not. -/
def renderEach : List Script → State → List (Except Fault String × State)
  | [], _ => []
  | script :: later, s => render script s :: renderEach later (render script s).2

end RuleScript.Typed
