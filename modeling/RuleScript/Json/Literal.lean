import RuleScript.Json.Progress
import RuleScript.Json.SyntaxError

/-!
The words `null`, `true` and `false`, after their first letter: the letters that must still come.
-/

namespace RuleScript.Json

/-- The letters of a word that are still to come. -/
structure Literal where
  left : List UInt8
deriving DecidableEq

namespace Literal

/-- The word `null` behind its first letter. -/
def nullRest : Literal := ⟨[Byte.lowerU, Byte.lowerL, Byte.lowerL]⟩

/-- The word `true` behind its first letter. -/
def trueRest : Literal := ⟨[Byte.lowerR, Byte.lowerU, Byte.lowerE]⟩

/-- The word `false` behind its first letter. -/
def falseRest : Literal := ⟨[Byte.lowerA, Byte.lowerL, Byte.lowerS, Byte.lowerE]⟩

/-- Takes one letter. -/
def step (l : Literal) (b : UInt8) : Except SyntaxError (Progress Literal Unit) :=
  match l.left with
  | [] => .error .expectedIdent
  | [last] => if b = last then .ok (.done ()) else .error .expectedIdent
  | next :: rest => if b = next then .ok (.more ⟨rest⟩) else .error .expectedIdent

end Literal

end RuleScript.Json
