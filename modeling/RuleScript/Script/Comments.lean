import RuleScript.Feed
import RuleScript.Json.Byte

/-!
Comments in a script: `/* … */` and `// …`. `withoutComments` is the feed that is left when they are
taken out, with a space in place of each of their bytes; the line feed that ends a line comment
stays. Inside a string nothing is a comment.

A slash outside strings is handed on as a space, and must begin a comment: if the byte behind it is
neither `*` nor `/`, there is a fault in place of that byte, and the next one is judged anew. A text
that ends in a string, in a block comment or behind such a slash fails at its end.

`length_withoutCommentsFrom` says that there is one item for each byte, and `items_append` that a
text can be taken in two parts, the second one from the state behind the first.
-/

namespace RuleScript.Script

open RuleScript.Json

/-- Where a byte stands. -/
inductive CommentState where
  /-- Outside strings and comments. -/
  | code
  | string
  /-- In a string, behind a backslash. -/
  | escape
  /-- Behind a slash that must begin a comment. -/
  | slash
  | block
  /-- In a block comment, behind an asterisk. -/
  | blockAsterisk
  | line
deriving DecidableEq, Repr

namespace CommentState

/-- Where the next byte stands. -/
def next (s : CommentState) (b : UInt8) : CommentState :=
  match s with
  | code => if b = Byte.quotationMark then string else if b = Byte.slash then slash else code
  | string => if b = Byte.quotationMark then code else if b = Byte.backslash then escape else string
  | escape => string
  | slash => if b = Byte.asterisk then block else if b = Byte.slash then line else slash
  | block => if b = Byte.asterisk then blockAsterisk else block
  | blockAsterisk =>
    if b = Byte.slash then code else if b = Byte.asterisk then blockAsterisk else block
  | line => if b = Byte.lineFeed then code else line

/-- What is handed on for a byte. -/
def shown (s : CommentState) (b : UInt8) : Feed.Item :=
  match s with
  | code => .byte (if b = Byte.slash then Byte.space else b)
  | string | escape => .byte b
  | slash =>
    if b = Byte.asterisk ∨ b = Byte.slash then .byte Byte.space else .fault .invalidData
  | block | blockAsterisk => .byte Byte.space
  | line => .byte (if b = Byte.lineFeed then b else Byte.space)

/-- The fault of a text that ends here, if it must not end here. -/
def ending (s : CommentState) : Option Fault :=
  match s with
  | code | line => none
  | string | escape | slash | block | blockAsterisk => some .invalidData

/-- Where the byte behind some bytes stands. -/
def behind (s : CommentState) (bytes : List UInt8) : CommentState := bytes.foldl next s

end CommentState

/-- The feed that is left of some bytes whose first one stands at `s`. -/
def withoutCommentsFrom (s : CommentState) : List UInt8 → Feed
  | [] => ⟨[], s.ending⟩
  | b :: rest =>
    let feed := withoutCommentsFrom (s.next b) rest
    ⟨s.shown b :: feed.items, feed.ending⟩

/-- The feed that is left of a script without its comments. -/
def withoutComments (bytes : List UInt8) : Feed := withoutCommentsFrom .code bytes

@[simp] theorem length_withoutCommentsFrom (s : CommentState) (bytes : List UInt8) :
    (withoutCommentsFrom s bytes).items.length = bytes.length := by
  induction bytes generalizing s with
  | nil => rfl
  | cons b rest ih => simp [withoutCommentsFrom, ih]

theorem ending_withoutCommentsFrom (s : CommentState) (bytes : List UInt8) :
    (withoutCommentsFrom s bytes).ending = (s.behind bytes).ending := by
  induction bytes generalizing s with
  | nil => rfl
  | cons b rest ih => simp [withoutCommentsFrom, CommentState.behind, ih]

theorem items_append (s : CommentState) (first second : List UInt8) :
    (withoutCommentsFrom s (first ++ second)).items =
      (withoutCommentsFrom s first).items
        ++ (withoutCommentsFrom (s.behind first) second).items := by
  induction first generalizing s with
  | nil => rfl
  | cons b rest ih => simp [withoutCommentsFrom, CommentState.behind, ih]

end RuleScript.Script
