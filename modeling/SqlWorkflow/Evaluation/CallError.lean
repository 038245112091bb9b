import SqlWorkflow.Action.Error
import SqlWorkflow.Evaluation.Binding
import SqlWorkflow.Project.Folder
import SqlWorkflow.Template.Fault
import SqlWorkflow.Template.Value

/-!
# Why a call is refused

The functions that files call to describe actions refuse arguments that make no sense.  To the
template that calls them every refusal is an invalid operation.
-/

namespace SqlWorkflow

/-- Why the file of a notebook cannot be used. -/
inductive NotebookFault where
  | missing
  /-- The file holds no JSON. -/
  | malformed
  | noCells
  deriving DecidableEq, Repr, Inhabited

/-- The wording of a fault. -/
def NotebookFault.message : NotebookFault → String
  | .missing => "file not found"
  | .malformed => "<syntax>"
  | .noCells => "notebook has no cells"

/-- Why a call is refused.  The function that was called goes by `what`. -/
inductive CallError where
  | unsupported (b : Binding) (kind : ActionKind)
  | badConfig (what : String) (e : DecodeError)
  | noMapping (what : String)
  | unknownTableType (name : String)
  | nothingToDescribe
  | badReference
  | emptyReference
  | badReferencePart
  | action (e : ActionError)
  | notText (kind : Template.ValueKind)
  | notTexts (kind : Template.ValueKind)
  | noText (what : String)
  | malformedJson
  /-- The file itself wants to fail. -/
  | raised (message : String)
  | noName (what : String)
  | noNameOrConfig (what : String)
  | noFilename
  | file (e : ProjectFileError)
  | notebook (path : String) (fault : NotebookFault)
  | hasNoQuery (kind : ActionKind)
  | noQueryGiven
  | notAnOperation
  | noColumns
  | noInputQuery (what : String)
  | unknownPart (name : String)
  deriving Repr, Inhabited

namespace CallError

/-- The text of the error. -/
def message : CallError → String
  | .unsupported b kind =>
    "[J004] " ++ b.name ++ "() is not available in " ++ kind.name ++ " actions"
  | .badConfig what e => "[J003] Invalid config: " ++ what ++ ": " ++ e.message .jsonValue
  | .noMapping what =>
    "[J003] Invalid config: " ++ what ++ "() expects a mapping or keyword arguments"
  | .unknownTableType name => "unknown table type '" ++ name ++ "'"
  | .nothingToDescribe => "describe() expects a column name or a map"
  | .badReference => "ref() expects a string or a target map"
  | .emptyReference => "ref() requires a non-empty name"
  | .badReferencePart => "ref() expects string arguments"
  | .action e => e.message
  | .notText kind => "expected a string, got " ++ kind.name
  | .notTexts kind => "expected a string or a list of strings, got " ++ kind.name
  | .noText what => what ++ " expects a string argument"
  | .malformedJson => "from_json parse error: <syntax>"
  | .raised message => message
  | .noName what => what ++ "() requires a name"
  | .noNameOrConfig what => what ++ "() expects a name or a config map"
  | .noFilename => "notebook() requires a filename"
  | .file e => e.message
  | .notebook path fault => "[J006] Invalid notebook '" ++ path ++ "': " ++ fault.message
  | .hasNoQuery kind => "a " ++ kind.name ++ " has no query"
  | .noQueryGiven => "query() requires an argument"
  | .notAnOperation => "queries() is only available on operations"
  | .noColumns => "columns() requires a map"
  | .noInputQuery what => what ++ "() requires a query"
  | .unknownPart name => "unknown section '" ++ name ++ "'"

/-- The error as the template sees it. -/
def cause (e : CallError) : Template.Cause := .invalid e.message

end CallError

end SqlWorkflow
