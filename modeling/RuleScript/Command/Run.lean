import RuleScript.Command.Arguments
import RuleScript.Script.Run

/-!
The command: it renders a script, puts the text on the standard output or into a file, and then
exports the table of the root frame if it is asked to. The text has been put out before the table is
looked for, so a missing table leaves the text standing.
-/

namespace RuleScript.Command

variable {m : Type → Type} [Monad m]

/-- What `--version` prints. -/
def versionText : String := "pegrules 0.1.0\n"

/-- Puts the rendered text out. -/
def putOut (access : Access m) (output : Option String) (text : String) :
    m (Except RunError Unit) := do
  match output with
  | some name => return (← access.write name text).mapError .system
  | none =>
    access.print text
    return .ok ()

/-- Exports the table if a name is given for it. -/
def exportIfAsked (access : Access m) (scope : Scope) : Option String → m (Except RunError Unit)
  | some name => exportTable access scope name
  | none => return .ok ()

/-- Does what the arguments ask for. -/
def perform (access : Access m) (arguments : Arguments) : m (Except RunError Unit) := do
  match ← Script.renderFile access arguments.script with
  | (.error e, _) => return .error e
  | (.ok text, scope) =>
    match ← putOut access arguments.output text with
    | .error e => return .error e
    | .ok () => exportIfAsked access scope arguments.rulesJson

/-- Runs the command and gives its exit code. A request for help and arguments that cannot be used
come to an exit code alone: the texts that explain the command are left out. -/
def run (access : Access m) (arguments : List String) : m UInt32 := do
  match Arguments.ofList arguments with
  | .ok arguments =>
    match ← perform access arguments with
    | .ok () => return 0
    | .error e =>
      access.printError ("error: " ++ e.message ++ "\n")
      return 1
  | .error .version =>
    access.print versionText
    return 0
  | .error .help => return 0
  | .error .usageError => return 2

end RuleScript.Command
