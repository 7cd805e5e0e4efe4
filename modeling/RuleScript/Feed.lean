import RuleScript.System.Error

/-!
A source of bytes that can fail. A feed is what a reader gets when it asks for one byte after
another: a byte, or a fault in its place, and at the end either nothing more or one fault for ever.
-/

namespace RuleScript

/-- Why a source gives no byte. -/
inductive Fault where
  /-- The bytes are not what the source should hold. -/
  | invalidData
  /-- The system refuses to read the source. -/
  | system (e : SystemError)
deriving DecidableEq, Repr

/-- The wording of a fault. -/
def Fault.message : Fault → String
  | .invalidData => "invalid data"
  | .system e => e.message

/-- What one request can give. -/
inductive Feed.Item where
  | byte (b : UInt8)
  | fault (f : Fault)
deriving DecidableEq, Repr

/-- All that the requests give, in their order. -/
structure Feed where
  items : List Feed.Item
  /-- The fault that every request after the items meets, if the source does not just end. -/
  ending : Option Fault
deriving DecidableEq, Repr

namespace Feed

/-- The feed of some bytes, without a fault. -/
def ofBytes (bytes : List UInt8) : Feed := ⟨bytes.map .byte, none⟩

/-- The feed that never gives a byte. -/
def broken (f : Fault) : Feed := ⟨[], some f⟩

end Feed

end RuleScript
