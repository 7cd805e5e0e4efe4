import RuleScript.Main
import RuleScript.Proofs.Script.Kept
import RuleScript.Proofs.Script.RoundTrip
import RuleScript.Proofs.Typed.Simulation
import RuleScript.Rule.Reader
import RuleScript.System.Files
import RuleScript.Proofs.Script.Exact
import RuleScript.Proofs.Scope.Column
import RuleScript.Proofs.Scope.Marks
import RuleScript.Proofs.Template.History
import RuleScript.Proofs.Template.FreshNames
import RuleScript.Proofs.Template.TableHistory
import RuleScript.Proofs.Json.IndentedReadBack
import RuleScript.Proofs.Rule.Exported
import RuleScript.Proofs.Template.SharedFrames
import RuleScript.Proofs.Script.Nested
import RuleScript.Proofs.Script.Cut
import RuleScript.Proofs.Script.Without
import RuleScript.Proofs.Script.Pieces
import RuleScript.Proofs.Json.Tokens
import RuleScript.Proofs.Script.Uncommented
import RuleScript.Proofs.Json.Between
import RuleScript.Proofs.Script.Gap
import RuleScript.Proofs.Json.Merged
import RuleScript.Proofs.Script.Written
import RuleScript.Proofs.Script.RootTable
import RuleScript.Proofs.System.Written
import RuleScript.Proofs.Command.Rendering
import RuleScript.Proofs.Rule.Declared
import RuleScript.Proofs.Rule.Shapes
import RuleScript.Proofs.Scope.LastWrite
import RuleScript.Proofs.Json.Numerals
import RuleScript.Proofs.Template.CountedNames
import RuleScript.Proofs.Template.Normal
import RuleScript.Proofs.Rule.Printed
import RuleScript.Proofs.Script.FirstMisshapen
import RuleScript.Proofs.Script.Logged
import RuleScript.Proofs.Json.Steps
import RuleScript.Proofs.Json.Skipped
import RuleScript.Proofs.Rule.Held
import RuleScript.Proofs.Rule.Streamed
import RuleScript.Proofs.Json.Place
import RuleScript.Proofs.Json.Asked
import RuleScript.Proofs.Script.ErrorLine
