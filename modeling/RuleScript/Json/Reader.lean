import RuleScript.Json.Literal
import RuleScript.Json.NumberToken
import RuleScript.Json.StringToken

/-!
The reader of JSON values: an automaton that takes one byte at a time. It keeps the container that
is being read in its mode, and the containers around that one in a stack, the innermost first. A
value is read as it is written: the members of an object in their order, repeated keys and all.

A number ends only at a byte that is not part of it, so that byte is taken again, behind the value.
-/

namespace RuleScript.Json

/-- A container around what is being read: what came before in it, the last item or member first,
and, in an object, the key of the value that is being read. -/
inductive Frame where
  | array (before : List Value)
  | object (before : List (String × Value)) (key : String)

/-- The kinds of container. -/
inductive Container where
  | array
  | object
deriving DecidableEq, Repr

/-- The kind of the container that a frame stands for. -/
def Frame.container : Frame → Container
  | .array _ => .array
  | .object _ _ => .object

/-- What the reader expects, or is in the middle of. -/
inductive Mode where
  /-- The beginning of a value, other than a first or later item. -/
  | value
  /-- The first item of an array, or its end. -/
  | firstItem
  /-- The item behind a comma. -/
  | nextItem (before : List Value)
  /-- What follows an item: a comma or the end of the array. -/
  | afterItem (before : List Value)
  /-- The first key of an object, or its end. -/
  | firstKey
  /-- The key behind a comma. -/
  | nextKey (before : List (String × Value))
  /-- The inside of a key. -/
  | key (before : List (String × Value)) (token : StringToken)
  /-- The colon behind a key. -/
  | colon (before : List (String × Value)) (key : String)
  /-- What follows a member: a comma or the end of the object. -/
  | afterMember (before : List (String × Value))
  /-- The inside of a word that stands for a value. -/
  | literal (token : Literal) (meaning : Value)
  /-- The inside of a number. -/
  | number (token : NumberToken)
  /-- The inside of a string. -/
  | string (token : StringToken)
  /-- The whole value has been read. -/
  | complete (v : Value)

/-- The reader between two bytes. -/
structure Reader where
  mode : Mode
  outer : List Frame

namespace Reader

/-- How many containers may be open at once. -/
def maxDepth : Nat := 127

/-- The reader before the first byte. -/
def start : Reader := ⟨.value, []⟩

/-- The kind of the innermost open container, if one is open. -/
def innermost? (r : Reader) : Option Container :=
  match r.mode with
  | .firstItem | .nextItem _ | .afterItem _ => some .array
  | .firstKey | .nextKey _ | .key .. | .colon .. | .afterMember _ => some .object
  | .value | .literal .. | .number _ | .string _ | .complete _ => r.outer.head?.map Frame.container

/-- Puts a value that has been read into the container around it. -/
def deliver (v : Value) : List Frame → Reader
  | [] => ⟨.complete v, []⟩
  | .array before :: outer => ⟨.afterItem (v :: before), outer⟩
  | .object before key :: outer => ⟨.afterMember ((key, v) :: before), outer⟩

/-- Opens a container inside the given ones. -/
def openContainer (outer : List Frame) (mode : Mode) : Except SyntaxError Reader :=
  if outer.length < maxDepth then .ok ⟨mode, outer⟩ else .error .tooDeep

/-- Takes the first byte of a value inside the given containers. -/
def startValue (outer : List Frame) (b : UInt8) : Except SyntaxError Reader :=
  if b = Byte.quotationMark then .ok ⟨.string .opened, outer⟩
  else if b = Byte.openBracket then openContainer outer .firstItem
  else if b = Byte.openBrace then openContainer outer .firstKey
  else if b = Byte.lowerN then .ok ⟨.literal .nullRest .null, outer⟩
  else if b = Byte.lowerT then .ok ⟨.literal .trueRest (.bool true), outer⟩
  else if b = Byte.lowerF then .ok ⟨.literal .falseRest (.bool false), outer⟩
  else match NumberToken.begin? b with
    | some token => .ok ⟨.number token, outer⟩
    | none => .error .expectedValue

/-- Takes a byte in any mode but the middle of a number. -/
def stepOutsideNumber (r : Reader) (b : UInt8) : Except SyntaxError Reader :=
  match r.mode with
  | .value => if isBlank b then .ok r else startValue r.outer b
  | .firstItem =>
    if isBlank b then .ok r
    else if b = Byte.closeBracket then .ok (deliver (.array []) r.outer)
    else startValue (.array [] :: r.outer) b
  | .nextItem before =>
    if isBlank b then .ok r
    else if b = Byte.closeBracket then .error .trailingComma
    else startValue (.array before :: r.outer) b
  | .afterItem before =>
    if isBlank b then .ok r
    else if b = Byte.comma then .ok ⟨.nextItem before, r.outer⟩
    else if b = Byte.closeBracket then .ok (deliver (.array before.reverse) r.outer)
    else .error .expectedCommaOrBracket
  | .firstKey =>
    if isBlank b then .ok r
    else if b = Byte.closeBrace then .ok (deliver (.object []) r.outer)
    else if b = Byte.quotationMark then .ok ⟨.key [] .opened, r.outer⟩
    else .error .keyMustBeString
  | .nextKey before =>
    if isBlank b then .ok r
    else if b = Byte.closeBrace then .error .trailingComma
    else if b = Byte.quotationMark then .ok ⟨.key before .opened, r.outer⟩
    else .error .keyMustBeString
  | .key before token => do
    match ← token.step b with
    | .more token => return ⟨.key before token, r.outer⟩
    | .done key => return ⟨.colon before key, r.outer⟩
  | .colon before key =>
    if isBlank b then .ok r
    else if b = Byte.colon then .ok ⟨.value, .object before key :: r.outer⟩
    else .error .expectedColon
  | .afterMember before =>
    if isBlank b then .ok r
    else if b = Byte.comma then .ok ⟨.nextKey before, r.outer⟩
    else if b = Byte.closeBrace then .ok (deliver (.object before.reverse) r.outer)
    else .error .expectedCommaOrBrace
  | .literal token meaning => do
    match ← token.step b with
    | .more token => return ⟨.literal token meaning, r.outer⟩
    | .done () => return deliver meaning r.outer
  | .string token => do
    match ← token.step b with
    | .more token => return ⟨.string token, r.outer⟩
    | .done s => return deliver (.string s) r.outer
  | .number _ => .ok r
  | .complete _ => if isBlank b then .ok r else .error .trailingCharacters

/-- Takes a byte. -/
def step (r : Reader) (b : UInt8) : Except SyntaxError Reader :=
  match r.mode with
  | .number token => do
    match ← token.step b with
    | .more token => return ⟨.number token, r.outer⟩
    | .done n => (deliver (.number n) r.outer).stepOutsideNumber b
  | _ => r.stepOutsideNumber b

/-- The value at the end of the text, in any mode but the middle of a number. -/
def finishOutsideNumber (r : Reader) : Except SyntaxError Value :=
  match r.mode with
  | .complete v => .ok v
  | .value | .nextItem _ | .nextKey _ | .literal .. | .number _ => .error .endInValue
  | .firstItem | .afterItem _ => .error .endInArray
  | .firstKey | .colon .. | .afterMember _ => .error .endInObject
  | .key .. | .string _ => .error .endInString

/-- The value at the end of the text. -/
def finish (r : Reader) : Except SyntaxError Value :=
  match r.mode with
  | .number token => do (deliver (.number (← token.finish)) r.outer).finishOutsideNumber
  | _ => r.finishOutsideNumber

end Reader

end RuleScript.Json
