import SqlWorkflow.Compile.Response
import SqlWorkflow.Evaluation.Run
import SqlWorkflow.Project.CoreLibrary

/-!
# Why a compile fails

What is wrong with a single file does not make the compile fail; it is recorded for the file.
Only what is wrong with the request or the project as a whole does.
-/

namespace SqlWorkflow

/-- Why a file of a project contributes nothing. -/
inductive FileError where
  | file (e : ProjectFileError)
  | notFound (path : String)
  | program (e : Sql.ProgramError)
  | evaluation (e : Evaluation.EvaluationError)
  /-- The evaluation broke off, and was held back there. -/
  | broken (message : String)
  deriving Repr, Inhabited

namespace FileError

/-- The text of the error. -/
def message : FileError → String
  | .file e => e.message
  | .notFound path => "[D004] File not found: " ++ path
  | .program e => e.message
  | .evaluation e => e.message
  | .broken message => "[D006] Evaluation panicked: " ++ message

/-- What it is for a file that its evaluation fails or breaks off. -/
def ofEvaluation (e : Evaluation.EvaluationError) : FileError :=
  match e.panic? with
  | some message => .broken message
  | none => .evaluation e

end FileError

/-- Why a path is not the path of a project's folder. -/
inductive FolderFault where
  | access (e : AccessError)
  | notFolder
  deriving DecidableEq, Repr, Inhabited

/-- The wording of the fault. -/
def FolderFault.message : FolderFault → String
  | .access e => e.message
  | .notFolder => "not a directory"

/-- Why a project has no graph. -/
inductive CompileError where
  | request (e : DecodeError)
  | folder (path : String) (fault : FolderFault)
  | config (e : ProjectConfigError)
  | settings (e : SettingsError)
  | entryPoints (e : EntryPointError)
  | pattern (e : PatternError)
  deriving Repr, Inhabited

namespace CompileError

/-- The text of the error. -/
def message : CompileError → String
  | .request e => "[D005] Invalid compile request: " ++ e.message .jsonText
  | .folder path fault =>
    "[D002] Cannot read project directory '" ++ path ++ "': " ++ fault.message
  | .config e => e.message
  | .settings e => e.message
  | .entryPoints e => e.message
  | .pattern e => e.message

/-- The name of the kind of error. -/
def name : CompileError → String
  | .config _ | .settings _ => "CoreError"
  | .request _ | .folder _ _ | .entryPoints _ | .pattern _ => "SandboxError"

/-- What the error is about. -/
def properties : CompileError → Dict Json
  | .entryPoints e => Dict.ofList [("version", .str e.version)]
  | .folder path _ => Dict.ofList [("path", .str path)]
  | .config (.twoFiles place) => Dict.ofList [("dir", .str place)]
  | .settings (.versionMismatch declared loaded) =>
    Dict.ofList [("declared", .str declared), ("loaded", .str loaded)]
  | _ => {}

/-- The texts of what caused the error, one causing the other. -/
def causes : CompileError → List String
  | .config (.unreadable _ e) => [e.message]
  | _ => []

/-- The error in a form that can be passed on. -/
def toFatal (e : CompileError) : FatalError where
  message := e.message
  stack := e.name ++ ": " ++ e.message ++
    String.join (e.causes.map fun cause => "\n    caused by: " ++ cause)
  name := e.name
  properties := e.properties

end CompileError

end SqlWorkflow
