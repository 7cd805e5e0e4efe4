import RuleScript.Feed
import RuleScript.Json.Reader

/-!
Reading a JSON value from a feed or from a text. The position of an error counts every byte that
was taken, the one that showed the error included.

When the feed fails inside a container, an attempt is made to close the innermost one before the
fault is reported: blanks are skipped, in an array once more behind a comma, and the next byte is
looked at. The fault is reported behind what that attempt has taken. A fault outside all containers
is reported without a place.
-/

namespace RuleScript.Json

/-- Why no value was read. -/
inductive ReadError where
  /-- The bytes are not JSON. -/
  | syntaxError (cause : SyntaxError) (position : Position)
  /-- The source failed. -/
  | fault (cause : Fault) (position : Option Position)
deriving DecidableEq, Repr

/-- The wording of a read error. -/
def ReadError.message : ReadError → String
  | .syntaxError cause position => atPosition cause.message position
  | .fault cause (some position) => atPosition cause.message position
  | .fault cause none => cause.message

/-- The place behind the attempt to close a container: behind the blanks and the byte after them.
A comma is passed over once where `passComma` says so. -/
def closingPlace (passComma : Bool) (p : Position) : List Feed.Item → Position
  | .byte b :: rest =>
    if isBlank b then closingPlace passComma (p.advance b) rest
    else if passComma && b = Byte.comma then closingPlace false (p.advance b) rest
    else p.advance b
  | .fault _ :: _ => p
  | [] => p

/-- The error for a fault that the reader met with the given items behind it. -/
def faultError (r : Reader) (p : Position) (cause : Fault) (rest : List Feed.Item) : ReadError :=
  .fault cause (r.innermost?.map fun container => closingPlace (container = .array) p rest)

/-- Goes on reading, the bytes before `p` taken. -/
def readFrom (r : Reader) (p : Position) (items : List Feed.Item) (ending : Option Fault) :
    Except ReadError Value :=
  match items, ending with
  | .byte b :: rest, ending =>
    match r.step b with
    | .ok r => readFrom r (p.advance b) rest ending
    | .error e => .error (.syntaxError e (e.place (p.advance b)))
  | .fault cause :: rest, _ => .error (faultError r p cause rest)
  | [], some cause => .error (faultError r p cause [])
  | [], none => r.finish.mapError fun e => .syntaxError e (e.place p)

/-- Reads the value that a feed holds. -/
def read (feed : Feed) : Except ReadError Value :=
  (readFrom .start .start feed.items feed.ending).map Value.merged

/-- The bytes of a text. -/
def bytesOf (s : String) : List UInt8 := s.toByteArray.data.toList

/-- The value that a text denotes, if the text is JSON. -/
def parse? (text : String) : Option Value :=
  match read (.ofBytes (bytesOf text)) with
  | .ok v => some v
  | .error _ => none

end RuleScript.Json
