import RuleScript.Json.Reader

/-!
The skipper passes over one JSON value without keeping it. It is more lenient than the reader: it
sets no limit to the depth, does not pair surrogates and takes numbers of any size; and what it
finds wrong it reports in its own way.

A step says that the value has ended before the byte that it was given, so a value that shows its
own end has ended before whatever byte follows.
-/

namespace RuleScript.Json

/-- An error that one byte shows, and whether that byte counts as taken. -/
structure ByteError (ε : Type) where
  cause : ε
  taken : Bool
deriving DecidableEq

namespace Skipper

/-- What comes next in a string that is passed over. -/
inductive StringPhase where
  | plain
  | letter
  | unit (digits : List UInt8)
deriving DecidableEq

/-- Takes a byte inside a string; nothing is left when it was the closing quotation mark. -/
def StringPhase.step (s : StringPhase) (b : UInt8) :
    Except (ByteError SyntaxError) (Option StringPhase) :=
  match s with
  | plain =>
    if b = Byte.quotationMark then .ok none
    else if b = Byte.backslash then .ok (some letter)
    else if b < Byte.space then .error ⟨.controlCharacter, false⟩
    else .ok (some plain)
  | letter =>
    if b = Byte.lowerU then .ok (some (unit []))
    else if (shortEscape? b).isSome then .ok (some plain)
    else .error ⟨.invalidEscape, true⟩
  | unit digits =>
    if digits.length < 3 then .ok (some (unit (digits ++ [b])))
    else if (hexValue? (digits ++ [b])).isSome then .ok (some plain)
    else .error ⟨.invalidEscape, true⟩

/-- What has been passed over of a number. -/
inductive NumberPhase where
  | minus
  | zero
  | whole
  | point
  | fraction
  | mark
  | signed
  | power
deriving DecidableEq

/-- The phase behind a byte that continues the number, or none if the number ends before it. -/
def NumberPhase.step (n : NumberPhase) (b : UInt8) :
    Except (ByteError SyntaxError) (Option NumberPhase) :=
  let isDigit := (digit? b).isSome
  let invalid := .error ⟨.invalidNumber, true⟩
  let afterWhole :=
    if b = Byte.point then some point else if NumberToken.isMark b then some mark else none
  match n with
  | minus => if b = Byte.zero then .ok (some zero) else if isDigit then .ok (some whole) else invalid
  | zero => if isDigit then invalid else .ok afterWhole
  | whole => .ok (if isDigit then some whole else afterWhole)
  | point => if isDigit then .ok (some fraction) else invalid
  | fraction =>
    .ok (if isDigit then some fraction else if NumberToken.isMark b then some mark else none)
  | mark =>
    if b = Byte.plus || b = Byte.minus then .ok (some signed)
    else if isDigit then .ok (some power) else invalid
  | signed => if isDigit then .ok (some power) else invalid
  | power => .ok (if isDigit then some power else none)

/-- Whether the number may end here. -/
def NumberPhase.mayEnd : NumberPhase → Bool
  | zero | whole | fraction | power => true
  | minus | point | mark | signed => false

/-- The phase of a number that a byte begins. -/
def NumberPhase.begin? (b : UInt8) : Option NumberPhase :=
  if b = Byte.minus then some minus
  else if b = Byte.zero then some zero
  else if (digit? b).isSome then some whole
  else none

/-- What the skipper expects, or is in the middle of. -/
inductive Mode where
  /-- The beginning of a value. -/
  | value
  /-- The first item or key of the innermost container, or its end. -/
  | first
  /-- What follows a value: a comma or the end of the innermost container, if one is open. -/
  | after
  /-- A key. -/
  | key
  | insideKey (phase : StringPhase)
  | colon
  | literal (token : Literal)
  | number (phase : NumberPhase)
  | string (phase : StringPhase)
deriving DecidableEq

end Skipper

/-- The skipper between two bytes: its mode and the kinds of the open containers. -/
structure Skipper where
  mode : Skipper.Mode
  containers : List Container
deriving DecidableEq

namespace Skipper

/-- The skipper before the first byte of a value. -/
def start : Skipper := ⟨.value, []⟩

/-- The byte that closes a container. -/
def closer : Container → UInt8
  | .array => Byte.closeBracket
  | .object => Byte.closeBrace

/-- What is wrong with a byte that is neither a comma nor the end of a container. -/
def expectedIn : Container → SyntaxError
  | .array => .expectedCommaOrBracket
  | .object => .expectedCommaOrBrace

/-- What is wrong with a text that ends in a container. -/
def endIn : Container → SyntaxError
  | .array => .endInArray
  | .object => .endInObject

/-- Takes the first byte of a value. -/
def startValue (containers : List Container) (b : UInt8) : Except (ByteError SyntaxError) Skipper :=
  if b = Byte.quotationMark then .ok ⟨.string .plain, containers⟩
  else if b = Byte.openBracket then .ok ⟨.first, .array :: containers⟩
  else if b = Byte.openBrace then .ok ⟨.first, .object :: containers⟩
  else if b = Byte.lowerN then .ok ⟨.literal .nullRest, containers⟩
  else if b = Byte.lowerT then .ok ⟨.literal .trueRest, containers⟩
  else if b = Byte.lowerF then .ok ⟨.literal .falseRest, containers⟩
  else match NumberPhase.begin? b with
    | some phase => .ok ⟨.number phase, containers⟩
    | none => .error ⟨.expectedValue, true⟩

/-- Takes the first byte of a key. -/
def startKey (containers : List Container) (b : UInt8) : Except (ByteError SyntaxError) Skipper :=
  if b = Byte.quotationMark then .ok ⟨.insideKey .plain, containers⟩
  else .error ⟨.keyMustBeString, true⟩

/-- Takes a byte behind a value. -/
def stepAfter (containers : List Container) (b : UInt8) :
    Except (ByteError SyntaxError) (Option Skipper) :=
  match containers with
  | [] => .ok none
  | container :: outer =>
    if isBlank b then .ok (some ⟨.after, containers⟩)
    else if b = closer container then .ok (some ⟨.after, outer⟩)
    else if b = Byte.comma then
      match container with
      | .array => .ok (some ⟨.value, containers⟩)
      | .object => .ok (some ⟨.key, containers⟩)
    else .error ⟨expectedIn container, true⟩

/-- Takes a byte, or says that the value has ended before it. -/
def step (s : Skipper) (b : UInt8) : Except (ByteError SyntaxError) (Option Skipper) :=
  match s.mode with
  | .value => if isBlank b then .ok (some s) else (startValue s.containers b).map some
  | .first =>
    match s.containers with
    | [] => .ok none
    | container :: outer =>
      if isBlank b then .ok (some s)
      else if b = closer container then .ok (some ⟨.after, outer⟩)
      else match container with
        | .array => (startValue s.containers b).map some
        | .object => (startKey s.containers b).map some
  | .after => stepAfter s.containers b
  | .key => if isBlank b then .ok (some s) else (startKey s.containers b).map some
  | .insideKey phase => do
    match ← phase.step b with
    | some phase => return some ⟨.insideKey phase, s.containers⟩
    | none => return some ⟨.colon, s.containers⟩
  | .colon =>
    if isBlank b then .ok (some s)
    else if b = Byte.colon then .ok (some ⟨.value, s.containers⟩)
    else .error ⟨.expectedColon, true⟩
  | .literal token =>
    match token.step b with
    | .ok (.more token) => .ok (some ⟨.literal token, s.containers⟩)
    | .ok (.done ()) => .ok (some ⟨.after, s.containers⟩)
    | .error e => .error ⟨e, true⟩
  | .number phase => do
    match ← phase.step b with
    | some phase => return some ⟨.number phase, s.containers⟩
    | none => stepAfter s.containers b
  | .string phase => do
    match ← phase.step b with
    | some phase => return some ⟨.string phase, s.containers⟩
    | none => return some ⟨.after, s.containers⟩

/-- What is wrong with a text that ends behind a value, if a container is still open. -/
def endAfter : List Container → Option SyntaxError
  | [] => none
  | container :: _ => some (endIn container)

/-- What is wrong with a text that ends here, unless the value has ended too. -/
def finish? (s : Skipper) : Option SyntaxError :=
  match s.mode with
  | .value | .literal _ => some .endInValue
  | .first | .after => endAfter s.containers
  | .key | .colon => some .endInObject
  | .insideKey _ | .string _ => some .endInString
  | .number phase => if phase.mayEnd then endAfter s.containers else some .invalidNumber

end Skipper

end RuleScript.Json
