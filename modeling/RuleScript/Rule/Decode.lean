import RuleScript.Json.Number
import RuleScript.Rule.Table
import RuleScript.Text.Quoted

/-!
Rules read back from values. A rule may stand as an object, whose members may come in any order and
among others, or as an array of its name, its pattern and, if it likes, its emitter. What is wrong
is reported for the first value that is, in the order in which the values stand.
-/

namespace RuleScript

open RuleScript.Json (Value Number)

/-! ### What can be wrong -/

/-- The parts of a rule. -/
inductive Rule.Field where
  | name
  | pattern
  | emitter
deriving DecidableEq, Repr

namespace Rule.Field

/-- The key of the member that holds a part. -/
def key : Rule.Field → String
  | name => "name"
  | pattern => "pattern"
  | emitter => "emitter"

/-- The part that is kept under a key. -/
def ofKey? (key : String) : Option Rule.Field :=
  [name, pattern, emitter].find? fun f => f.key = key

end Rule.Field

/-- What was found in place of something else. -/
inductive Found where
  | null
  | bool (b : Bool)
  | number (n : Number)
  | string (s : String)
  | array
  | object
deriving DecidableEq

namespace Found

/-- What a value is, contents of containers left aside. -/
def ofValue : Value → Found
  | .null => .null
  | .bool b => .bool b
  | .number n => .number n
  | .string s => .string s
  | .array _ => .array
  | .object _ => .object

/-- The wording for what was found. -/
def wording : Found → String
  | null => "null"
  | bool true => "boolean `true`"
  | bool false => "boolean `false`"
  | number (.float x) => "floating point `" ++ (Number.float x).text ++ "`"
  | number n => "integer `" ++ n.text ++ "`"
  | string s => "string " ++ Text.quoted s
  | array => "sequence"
  | object => "map"

end Found

/-- What was wanted. -/
inductive Wanted where
  | string
  | rule
deriving DecidableEq, Repr

/-- The wording for what was wanted. -/
def Wanted.wording : Wanted → String
  | .string => "a string"
  | .rule => "struct RuleRecord"

/-- Why a value is not a rule. -/
inductive ShapeError where
  | wrongType (found : Found) (wanted : Wanted)
  | tooShort (length : Nat)
  | tooLong (length : Nat)
  | missing (field : Rule.Field)
  | repeated (field : Rule.Field)
deriving DecidableEq

/-- The wording of a shape error. -/
def ShapeError.message : ShapeError → String
  | .wrongType found wanted => "invalid type: " ++ found.wording ++ ", expected " ++ wanted.wording
  | .tooShort n => s!"invalid length {n}, expected struct RuleRecord with 3 elements"
  | .tooLong n => s!"invalid length {n}, expected fewer elements in array"
  | .missing field => s!"missing field `{field.key}`"
  | .repeated field => s!"duplicate field `{field.key}`"

namespace Rule

/-! ### Parts read so far -/

/-- The parts of a rule that have been read. -/
structure Parts where
  name : Option String
  pattern : Option String
  emitter : Option (Option String)
deriving DecidableEq, Repr

namespace Parts

/-- No part at all. -/
def none : Parts := ⟨.none, .none, .none⟩

/-- Whether a part has been read. -/
def has (p : Parts) : Field → Bool
  | .name => p.name.isSome
  | .pattern => p.pattern.isSome
  | .emitter => p.emitter.isSome

/-- The parts with the text of one more. -/
def put (p : Parts) (field : Field) (text : String) : Parts :=
  match field with
  | .name => ⟨text, p.pattern, p.emitter⟩
  | .pattern => ⟨p.name, text, p.emitter⟩
  | .emitter => ⟨p.name, p.pattern, some (some text)⟩

/-- The parts with the statement that there is no emitter. -/
def putNoEmitter (p : Parts) : Parts := ⟨p.name, p.pattern, some .none⟩

/-- The rule made of the parts: only the emitter may be missing. -/
def complete (p : Parts) : Except ShapeError Rule :=
  match p.name, p.pattern with
  | some name, some pattern => .ok ⟨name, pattern, p.emitter.getD .none⟩
  | .none, _ => .error (.missing .name)
  | some _, .none => .error (.missing .pattern)

end Parts

/-! ### Decoding -/

/-- The text of a value that must be a string. -/
def textOf : Value → Except ShapeError String
  | .string s => .ok s
  | v => .error (.wrongType (.ofValue v) .string)

/-- The emitter of a value that must be null or a string. -/
def emitterOf : Value → Except ShapeError (Option String)
  | .null => .ok none
  | v => (textOf v).map some

/-- The parts with one more, read from its value. -/
def Parts.read (p : Parts) (field : Field) (v : Value) : Except ShapeError Parts :=
  match field with
  | .name | .pattern => (textOf v).map (p.put field)
  | .emitter => (emitterOf v).map fun emitter => ⟨p.name, p.pattern, some emitter⟩

/-- Reads the parts among some members, other members left aside; the first member of a key
counts. -/
def readMembers (p : Parts) : List (String × Value) → Except ShapeError Parts
  | [] => .ok p
  | (key, v) :: rest =>
    match Field.ofKey? key with
    | none => readMembers p rest
    | some field =>
      if p.has field then readMembers p rest
      else do readMembers (← p.read field v) rest

/-- The rule that stands as an array. -/
def ofItems : List Value → Except ShapeError Rule
  | [] => .error (.tooShort 0)
  | [name] => do
    let _ ← textOf name
    .error (.tooShort 1)
  | [name, pattern] => do return ⟨← textOf name, ← textOf pattern, none⟩
  | name :: pattern :: emitter :: rest => do
    let rule : Rule := ⟨← textOf name, ← textOf pattern, ← emitterOf emitter⟩
    if rest.isEmpty then .ok rule else .error (.tooLong (3 + rest.length))

/-- The rule that a value stands for. -/
def ofValue : Value → Except ShapeError Rule
  | .array items => ofItems items
  | .object members => do (← readMembers .none members).complete
  | v => .error (.wrongType (.ofValue v) .rule)

end Rule

/-- Why a value is not a table. -/
inductive TableError where
  | notAnArray
  | badRule (e : ShapeError)
deriving DecidableEq

/-- The wording of a table error. -/
def TableError.message : TableError → String
  | .notAnArray => "expected an array of rules"
  | .badRule e => e.message

/-- The table that a value stands for: an array of rules. -/
def RuleTable.ofValue : Value → Except TableError RuleTable
  | .array items => (items.mapM Rule.ofValue).mapError .badRule |>.map RuleTable.mk
  | _ => .error .notAnArray

end RuleScript
