import RuleScript.Command.Run

/-!
The command on the real system.
-/

namespace RuleScript

/-- A refusal of the real system. -/
def SystemError.ofReal : IO.Error → SystemError
  | .noFileOrDirectory .. => .notFound
  | .inappropriateType _ 20 _ => .notADirectory
  | .inappropriateType _ 21 _ => .isADirectory
  | .invalidArgument _ 36 _ => .nameTooLong
  | .permissionDenied _ code details => .other s!"{details} (os error {code})"
  | .resourceExhausted _ code details => .other s!"{details} (os error {code})"
  | e => .other (toString e)

/-- Access to the real system. -/
def realAccess : Access IO where
  read name := do
    try
      return .ok (.bytes (← IO.FS.readBinFile name).data.toList)
    catch e =>
      match SystemError.ofReal e with
      | .isADirectory => return .ok .directory
      | e => return .error e
  write name text := do
    try
      IO.FS.writeFile name text
      return .ok ()
    catch e => return .error (.ofReal e)
  print text := do
    let out ← IO.getStdout
    out.putStr text
    out.flush
  printError text := do (← IO.getStderr).putStr text

end RuleScript

/-- Runs the command. -/
def main (arguments : List String) : IO UInt32 :=
  RuleScript.Command.run RuleScript.realAccess arguments
