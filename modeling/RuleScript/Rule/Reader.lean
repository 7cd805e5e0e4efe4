import RuleScript.Json.Read
import RuleScript.Json.Skipper
import RuleScript.Rule.Decode

/-!
Rules read directly from JSON text, without a value in between. The rule is checked while it is
read, so the first thing wrong in the text is reported, be it in the JSON or in the shape of the
rule, and with its position. Members that are no parts of a rule are passed over.

A known key that comes twice is reported behind the attempt to close the object: behind the blanks
after the key and a closing brace, if there is one.
-/

namespace RuleScript

open RuleScript.Json

/-- Why a text is not a rule. -/
inductive Rule.TextError where
  | syntaxError (e : SyntaxError)
  | shape (e : ShapeError)
deriving DecidableEq

/-- The wording of a text error. -/
def Rule.TextError.message : Rule.TextError → String
  | .syntaxError e => e.message
  | .shape e => e.message

namespace Rule.Reader

/-! ### States -/

/-- Where the text of a part stands. -/
inductive Slot where
  /-- In an array; `left` are the parts that may still follow. -/
  | item (left : List Field)
  | member
deriving DecidableEq

/-- A token of a wrong type, which is read to its end before it is reported. -/
inductive WrongToken where
  | literal (token : Literal) (meaning : Found)
  | number (token : NumberToken)
  | string (token : StringToken)
deriving DecidableEq

/-- What the reader expects, or is in the middle of. -/
inductive Mode where
  /-- The rule. -/
  | start
  /-- The name in an array, or its end. -/
  | firstItem
  /-- The next part in an array, behind a comma. -/
  | nextItem (parts : Parts) (field : Field) (left : List Field)
  /-- What follows a part in an array, when some may still follow. -/
  | afterItem (parts : Parts) (left : List Field)
  /-- The end of the array, all three parts read. -/
  | lastBracket (parts : Parts)
  /-- What follows a comma behind all three parts. -/
  | surplus
  /-- The first key of an object, or its end. -/
  | firstKey
  /-- The key behind a comma. -/
  | nextKey (parts : Parts)
  | key (parts : Parts) (token : StringToken)
  /-- The colon behind a key, which may be that of a part. -/
  | colon (parts : Parts) (field : Option Field)
  /-- The value of a part in an object. -/
  | member (parts : Parts) (field : Field)
  /-- What follows a member. -/
  | afterMember (parts : Parts)
  /-- The attempt to close an object in which a key came twice. -/
  | repeated (field : Field)
  /-- The inside of the text of a part. -/
  | text (parts : Parts) (field : Field) (slot : Slot) (token : StringToken)
  /-- The inside of `null` for an emitter. -/
  | noEmitter (parts : Parts) (slot : Slot) (token : Literal)
  /-- The inside of a token of a wrong type. -/
  | wrong (token : WrongToken) (wanted : Wanted)
  /-- The inside of a member that is no part of a rule. -/
  | skipped (parts : Parts) (skipper : Skipper)
  /-- The rule has been read. -/
  | complete (rule : Rule)

/-! ### Errors at a byte -/

/-- A step fails at the byte it was given, which counts as taken or not. -/
abbrev Step (α : Type) := Except (ByteError TextError) α

/-- Fails behind the byte, the JSON being wrong. -/
def badSyntax {α : Type} (e : SyntaxError) : Step α := .error ⟨.syntaxError e, true⟩

/-- Fails behind the byte, the shape being wrong. -/
def badShape {α : Type} (e : ShapeError) : Step α := .error ⟨.shape e, true⟩

/-- Fails before the byte, the shape being wrong. -/
def badShapeBefore {α : Type} (e : ShapeError) : Step α := .error ⟨.shape e, false⟩

/-- A token's error as an error of the step. -/
def ofToken {α : Type} : Except SyntaxError α → Step α
  | .ok a => .ok a
  | .error e => badSyntax e

/-- The skipper's error as an error of the step. -/
def ofSkipper {α : Type} : Except (ByteError SyntaxError) α → Step α
  | .ok a => .ok a
  | .error e => .error ⟨.syntaxError e.cause, e.taken⟩

/-! ### Steps -/

/-- The mode behind a part. -/
def afterPart (parts : Parts) : Slot → Mode
  | .item [] => .lastBracket parts
  | .item left => .afterItem parts left
  | .member => .afterMember parts

/-- Takes the first byte of something of a wrong type. -/
def startWrong (wanted : Wanted) (b : UInt8) : Step Mode :=
  if b = Byte.lowerN then .ok (.wrong (.literal .nullRest .null) wanted)
  else if b = Byte.lowerT then .ok (.wrong (.literal .trueRest (.bool true)) wanted)
  else if b = Byte.lowerF then .ok (.wrong (.literal .falseRest (.bool false)) wanted)
  else if b = Byte.quotationMark then .ok (.wrong (.string .opened) wanted)
  else if b = Byte.openBracket then badShapeBefore (.wrongType .array wanted)
  else if b = Byte.openBrace then badShapeBefore (.wrongType .object wanted)
  else match NumberToken.begin? b with
    | some token => .ok (.wrong (.number token) wanted)
    | none => badSyntax .expectedValue

/-- Takes the first byte of a part. -/
def startPart (parts : Parts) (field : Field) (slot : Slot) (b : UInt8) : Step Mode :=
  if b = Byte.quotationMark then .ok (.text parts field slot .opened)
  else if field = .emitter ∧ b = Byte.lowerN then .ok (.noEmitter parts slot .nullRest)
  else startWrong .string b

/-- Takes a byte inside a token of a wrong type. -/
def stepWrong (token : WrongToken) (wanted : Wanted) (b : UInt8) : Step Mode :=
  match token with
  | .literal token meaning => do
    match ← ofToken (token.step b) with
    | .more token => return .wrong (.literal token meaning) wanted
    | .done () => badShape (.wrongType meaning wanted)
  | .string token => do
    match ← ofToken (token.step b) with
    | .more token => return .wrong (.string token) wanted
    | .done s => badShape (.wrongType (.string s) wanted)
  | .number token => do
    match ← ofToken (NumberToken.advance token.phase b) with
    | some phase => return .wrong (.number ⟨token.negative, phase⟩) wanted
    | none =>
      match token.ended with
      | .ok n => badShapeBefore (.wrongType (.number n) wanted)
      | .error e => .error ⟨.syntaxError e, false⟩

/-- Takes the closing bracket of an array in which some parts may still follow. -/
def closeItems (parts : Parts) (left : List Field) : Step Mode :=
  match parts.complete with
  | .ok rule => .ok (.complete rule)
  | .error _ => badShape (.tooShort (3 - left.length))

/-- Takes the closing brace of an object. -/
def closeMembers (parts : Parts) : Step Mode :=
  match parts.complete with
  | .ok rule => .ok (.complete rule)
  | .error e => badShape e

/-- The mode behind a key. -/
def afterKey (parts : Parts) (key : String) : Mode :=
  match Field.ofKey? key with
  | some field => if parts.has field then .repeated field else .colon parts (some field)
  | none => .colon parts none

/-- Takes a byte behind a member. -/
def stepAfterMember (parts : Parts) (b : UInt8) : Step Mode :=
  if isBlank b then .ok (.afterMember parts)
  else if b = Byte.comma then .ok (.nextKey parts)
  else if b = Byte.closeBrace then closeMembers parts
  else badSyntax .expectedCommaOrBrace

/-- Takes a byte. -/
def step (mode : Mode) (b : UInt8) : Step Mode :=
  match mode with
  | .start =>
    if isBlank b then .ok mode
    else if b = Byte.openBracket then .ok .firstItem
    else if b = Byte.openBrace then .ok .firstKey
    else startWrong .rule b
  | .firstItem =>
    if isBlank b then .ok mode
    else if b = Byte.closeBracket then badShape (.tooShort 0)
    else startPart .none .name (.item [.pattern, .emitter]) b
  | .nextItem parts field left =>
    if isBlank b then .ok mode
    else if b = Byte.closeBracket then badSyntax .trailingComma
    else startPart parts field (.item left) b
  | .afterItem parts left =>
    if isBlank b then .ok mode
    else if b = Byte.comma then
      match left with
      | [] => .ok .surplus
      | field :: left => .ok (.nextItem parts field left)
    else if b = Byte.closeBracket then closeItems parts left
    else badSyntax .expectedCommaOrBracket
  | .lastBracket parts =>
    if isBlank b then .ok mode
    else if b = Byte.comma then .ok .surplus
    else if b = Byte.closeBracket then closeItems parts []
    else badSyntax .trailingCharacters
  | .surplus =>
    if isBlank b then .ok mode
    else if b = Byte.closeBracket then badSyntax .trailingComma
    else badSyntax .trailingCharacters
  | .firstKey =>
    if isBlank b then .ok mode
    else if b = Byte.closeBrace then closeMembers .none
    else if b = Byte.quotationMark then .ok (.key .none .opened)
    else badSyntax .keyMustBeString
  | .nextKey parts =>
    if isBlank b then .ok mode
    else if b = Byte.closeBrace then badSyntax .trailingComma
    else if b = Byte.quotationMark then .ok (.key parts .opened)
    else badSyntax .keyMustBeString
  | .key parts token => do
    match ← ofToken (token.step b) with
    | .more token => return .key parts token
    | .done key => return afterKey parts key
  | .colon parts field =>
    if isBlank b then .ok mode
    else if b = Byte.colon then
      match field with
      | some field => .ok (.member parts field)
      | none => .ok (.skipped parts .start)
    else badSyntax .expectedColon
  | .member parts field => if isBlank b then .ok mode else startPart parts field .member b
  | .afterMember parts => stepAfterMember parts b
  | .repeated field =>
    if isBlank b then .ok mode
    else if b = Byte.closeBrace then badShape (.repeated field)
    else badShapeBefore (.repeated field)
  | .text parts field slot token => do
    match ← ofToken (token.step b) with
    | .more token => return .text parts field slot token
    | .done s => return afterPart (parts.put field s) slot
  | .noEmitter parts slot token => do
    match ← ofToken (token.step b) with
    | .more token => return .noEmitter parts slot token
    | .done () => return afterPart parts.putNoEmitter slot
  | .wrong token wanted => stepWrong token wanted b
  | .skipped parts skipper => do
    match ← ofSkipper (skipper.step b) with
    | some skipper => return .skipped parts skipper
    | none => stepAfterMember parts b
  | .complete _ => if isBlank b then .ok mode else badSyntax .trailingCharacters

/-- The rule at the end of the text. -/
def finish (mode : Mode) : Except TextError Rule :=
  match mode with
  | .complete rule => .ok rule
  | .start | .nextItem .. | .nextKey _ | .member .. | .noEmitter .. | .wrong (.literal ..) _ =>
    .error (.syntaxError .endInValue)
  | .firstItem | .afterItem .. | .lastBracket _ => .error (.syntaxError .endInArray)
  | .surplus => .error (.syntaxError .trailingCharacters)
  | .firstKey | .colon .. | .afterMember _ => .error (.syntaxError .endInObject)
  | .key .. | .text .. | .wrong (.string _) _ => .error (.syntaxError .endInString)
  | .repeated field => .error (.shape (.repeated field))
  | .wrong (.number token) wanted =>
    match token.finish with
    | .ok n => .error (.shape (.wrongType (.number n) wanted))
    | .error e => .error (.syntaxError e)
  | .skipped _ skipper => .error (.syntaxError (skipper.finish?.getD .endInObject))

/-! ### Running over a text -/

/-- Goes on reading, the bytes before `p` taken. -/
def readFrom (mode : Mode) (p : Position) : List UInt8 → Except (TextError × Position) Rule
  | [] => (finish mode).mapError fun e => (e, p)
  | b :: rest =>
    match step mode b with
    | .ok mode => readFrom mode (p.advance b) rest
    | .error e => .error (e.cause, if e.taken then p.advance b else p)

end Rule.Reader

/-- The rule that a JSON text stands for, or what is wrong with the text. -/
def Rule.ofText (text : String) : Except String Rule :=
  (Rule.Reader.readFrom .start .start (bytesOf text)).mapError fun (e, p) => atPosition e.message p

end RuleScript
