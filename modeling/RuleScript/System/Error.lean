/-!
What the operating system can refuse, in the words in which it is reported.
-/

namespace RuleScript

/-- A refusal of the operating system. -/
inductive SystemError where
  | notFound
  | notADirectory
  | isADirectory
  | nameTooLong
  /-- The name holds a NUL character. -/
  | nulInName
  /-- Any other refusal, in its own words. -/
  | other (text : String)
deriving DecidableEq, Repr

/-- The wording of a refusal. -/
def SystemError.message : SystemError → String
  | .notFound => "No such file or directory (os error 2)"
  | .notADirectory => "Not a directory (os error 20)"
  | .isADirectory => "Is a directory (os error 21)"
  | .nameTooLong => "File name too long (os error 36)"
  | .nulInName => "file name contained an unexpected NUL byte"
  | .other text => text

end RuleScript
