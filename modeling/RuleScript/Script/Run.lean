import RuleScript.Rule.Export
import RuleScript.Script.Parse
import RuleScript.Script.Render

/-!
Running a script file: it is read, rendered on a scope of its own, and the table that it leaves in
the root frame can be exported.
-/

namespace RuleScript

/-- Why a run failed. -/
inductive RunError where
  /-- There is no script in the file of this name. -/
  | script (name : String) (e : ScriptError)
  /-- A step failed, or there is no table to export. -/
  | template (e : TemplateError)
  /-- A file could not be written. -/
  | system (e : SystemError)

/-- The wording of a run error. -/
def RunError.message : RunError → String
  | .script name e => s!"ParsingError in {name}: {e.message}"
  | .template e => e.message
  | .system e => e.message

/-- The name under which a script that is in no file is reported. -/
def memoryName : String := "<memory>"

namespace Script

/-- The script that a text holds, which is in no file. -/
def parseInMemory (text : String) : Except RunError Script :=
  (parse text).mapError (.script memoryName)

variable {m : Type → Type} [Monad m]

/-- Reads the script in a file. -/
def load (access : Access m) (name : String) : m (Except RunError Script) := do
  return (ofSource (← access.read name)).mapError (.script name)

/-- Reads the script in a file and renders it on an empty scope; gives its text and what is left in
the scope. -/
def renderFile (access : Access m) (name : String) : m (Except RunError String × Scope) := do
  match ← load access name with
  | .error e => return (.error e, .root)
  | .ok script =>
    let outcome := Script.render script .root
    return (outcome.result.mapError .template, outcome.scope)

end Script

/-- Writes the table of a scope into a file. -/
def exportTable {m : Type → Type} [Monad m] (access : Access m) (scope : Scope) (name : String) :
    m (Except RunError Unit) := do
  match (Tables.load scope).result with
  | .error e => return .error (.template e)
  | .ok table => return (← access.write name table.exported).mapError .system

end RuleScript
