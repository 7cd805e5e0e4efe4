import RuleScript.Template.Function
import RuleScript.Text.Quoted

/-!
What is logged while a script is rendered, and the lines that it is logged as.
-/

namespace RuleScript

/-- Something that is logged. -/
inductive Event where
  /-- A frame was entered, and there are now `depth` of them. -/
  | enteredFrame (depth : Nat)
  /-- A frame was left, and there are now `depth` of them. -/
  | leftFrame (depth : Nat)
  /-- A nested scope of a script begins. -/
  | enteringScope (depth : Nat)
  /-- A nested scope of a script ends. -/
  | leavingScope (depth : Nat)
  /-- A function is called with arguments that fit. -/
  | calling (function : TemplateFunction) (args : List String)
  /-- A call has given its text. -/
  | returned (function : TemplateFunction) (text : String)
  /-- A text of the script is copied. -/
  | emitting (text : String)
  /-- A rule has been added to a table that now has `size` of them. -/
  | addedRule (name : String) (size : Nat)
  /-- An emitter has been attached. -/
  | attachedEmitter (name : String)
deriving DecidableEq, Repr

/-- How important a line is. -/
inductive Level where
  | debug
  | trace
deriving DecidableEq, Repr

/-- The wording of a level. -/
def Level.text : Level → String
  | .debug => "DEBUG"
  | .trace => "TRACE"

namespace Event

/-- The level of an event. -/
def level : Event → Level
  | enteredFrame _ | leftFrame _ | emitting _ | returned .. => .trace
  | enteringScope _ | leavingScope _ | calling .. | addedRule .. | attachedEmitter _ => .debug

/-- The name of the part of the program that an event belongs to. -/
def target : Event → String
  | enteredFrame _ | leftFrame _ => "pegrules::scope"
  | enteringScope _ | leavingScope _ | returned .. | emitting _ => "pegrules::render"
  | calling .. => "pegrules::functions"
  | addedRule .. | attachedEmitter _ => "pegrules::grammar::table"

/-- The wording of an event. -/
def message : Event → String
  | enteredFrame depth => s!"Entered scope at depth {depth}"
  | leftFrame depth => s!"Left scope, now at depth {depth}"
  | enteringScope depth => s!"Entering scope at depth {depth}"
  | leavingScope depth => s!"Leaving scope at depth {depth}"
  | calling f args => s!"Calling {f.name}({Text.quotedList args})"
  | returned f text => s!"{f.name} returned {Text.quoted text}"
  | emitting text => s!"Emitting {Text.quoted text}"
  | addedRule name size => s!"Added rule {name} (now {size} rules)"
  | attachedEmitter name => s!"Attached emitter to rule {name}"

/-- The line that an event is logged as. -/
def line (e : Event) : String := e.level.text ++ " " ++ e.target ++ ": " ++ e.message

end Event

end RuleScript
