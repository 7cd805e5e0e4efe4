import RuleScript.System.Error

/-!
The access that a program has to the system around it: it reads files, writes files and prints. A
program that uses nothing else can run on the real system and on one that is only imagined.
-/

namespace RuleScript

/-- What opening a file for reading gives. -/
inductive Source where
  | bytes (content : List UInt8)
  /-- A directory, which can be opened but not read. -/
  | directory
deriving DecidableEq, Repr

/-- Access to a system, its effects those of `m`. -/
structure Access (m : Type → Type) where
  /-- Opens a file and gives its content. -/
  read : String → m (Except SystemError Source)
  /-- Makes a file, or empties the one that is there, and writes a text into it. -/
  write : String → String → m (Except SystemError Unit)
  /-- Prints on the standard output. -/
  print : String → m Unit
  /-- Prints on the standard error output. -/
  printError : String → m Unit

end RuleScript
