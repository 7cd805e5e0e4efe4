import RuleScript.Json.Value

/-!
A rule of a grammar: its name, its pattern and, once one has been attached, the emitter that runs
on a match. All three are plain text that is never looked into.
-/

namespace RuleScript

/-- A rule of a grammar. -/
structure Rule where
  name : String
  pattern : String
  emitter : Option String
deriving DecidableEq, Repr

namespace Rule

/-- A rule without an emitter. -/
def plain (name pattern : String) : Rule := ⟨name, pattern, none⟩

/-- Whether no emitter has been attached yet. -/
def isPlain (r : Rule) : Bool := r = plain r.name r.pattern

/-- The rule with an emitter attached, in place of any earlier one. -/
def withEmitter (r : Rule) (emitter : String) : Rule := ⟨r.name, r.pattern, some emitter⟩

/-- What is printed for an emitter that was never attached. -/
def missingEmitter : String := "undefined"

/-- The rule as a form of the parser library. -/
def form (r : Rule) : String :=
  "(define-peg " ++ r.name ++ " " ++ r.pattern ++ " " ++ r.emitter.getD missingEmitter ++ ")"

/-- The value under which an emitter is kept. -/
def emitterValue : Option String → Json.Value
  | some emitter => .string emitter
  | none => .null

/-- The value under which a rule is kept: always the three members, in this order. -/
def toValue (r : Rule) : Json.Value :=
  .object [("name", .string r.name), ("pattern", .string r.pattern),
    ("emitter", emitterValue r.emitter)]

end Rule

end RuleScript
