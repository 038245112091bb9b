import SqlWorkflow.Compile.Error
import SqlWorkflow.Compile.Request
import SqlWorkflow.Graph.Encoding
import SqlWorkflow.Session.Basic

/-!
# Compiling projects

A project is compiled by evaluating its includes and then its definitions, each on its own, and
compiling the session that collects what they say.  A file that fails adds an error to the session
and nothing else.
-/

namespace SqlWorkflow

open Evaluation (Evaluator)

namespace Session

/-- The session with what a file gave. -/
def takeIn (s : Session) (path : String) (output : Evaluation.FileOutput) : Session :=
  let s := output.registrations.foldl register s
  let s := output.tests.foldl registerTest s
  output.warnings.foldl (fun s warning => s.warn path warning) s

end Session

/-! ## §1 Files -/

namespace Evaluation.Evaluator

/-- The text of a file of the project, which must be there. -/
def textOf (e : Evaluator) (path : String) : Except FileError String := do
  match ← (e.project.read path).mapError .file with
  | some text => return text
  | none => throw (.notFound path)

/-- Evaluates an include; its warnings. -/
def probeFile (e : Evaluator) (path : String) : Except FileError (List String) := do
  let source ← e.textOf path
  (e.probe path source).mapError .ofEvaluation

/-- Evaluates a definition. -/
def evaluateFile (e : Evaluator) (points : EntryPoints) (path : String) :
    Except FileError FileOutput := do
  let source ← e.textOf path
  let program ← (points.compile path source).mapError .program
  (e.evaluate program).mapError .ofEvaluation

/-- Evaluates an include into a session.  Later definitions see it if it works. -/
def addInclude (state : Session × Evaluator) (path : String) : Session × Evaluator :=
  let (s, e) := state
  match e.probeFile path with
  | .ok warnings =>
    (warnings.foldl (fun s warning => s.warn path warning) s, (e.addImport path).2)
  | .error error => (s.compileError path error.message, e)

/-- Evaluates a definition into a session. -/
def addDefinition (e : Evaluator) (points : EntryPoints) (s : Session) (path : String) :
    Session :=
  match e.evaluateFile points path with
  | .ok output => s.takeIn path output
  | .error error => s.compileError path error.message

/-- Evaluates all files of a project into a session. -/
def evaluateIndex (e : Evaluator) (points : EntryPoints) (index : ProjectIndex) (s : Session) :
    Session :=
  let (s, e) := index.includes.foldl addInclude (s, e)
  index.definitions.foldl (e.addDefinition points) s

end Evaluation.Evaluator

/-! ## §2 Projects -/

namespace CompileRequest

/-- The folder of the project. -/
def project (r : CompileRequest) (disk : Disk) : Except CompileError ProjectFolder := do
  let refuse (fault : FolderFault) : CompileError := .folder r.projectFolder fault
  let place ← (disk.locate r.projectFolder).mapError fun e => refuse (.access e)
  match disk.root.at? place with
  | some (.folder _) => return { disk, path := Disk.pathOf place }
  | _ => throw (refuse .notFolder)

/-- The steps that each file may take. -/
def fuelLimit (r : CompileRequest) : Option Nat :=
  match r.fuel with
  | none => ({} : Evaluation.Options).fuel
  | some 0 => none
  | some fuel => some fuel

/-- The graph of the project that a request names. -/
def compile (r : CompileRequest) (disk : Disk) : Except CompileError CompiledGraph := do
  let project ← r.project disk
  let config ← project.config.mapError .config
  let overrides : ProjectConfig.Overrides := { schemaSuffix := r.schemaSuffix, vars := r.vars }
  let config ← (config.override overrides).mapError .settings
  let library := CoreLibrary.select config.coreVersion
  (config.checkVersion library.version).mapError .settings
  let points ← (library.entryPoints r.mode r.forceLegacy).mapError .entryPoints
  let index ← (ProjectIndex.generate points.files project r.filePaths).mapError .pattern
  let evaluator : Evaluator :=
    { project, options := { vars := config.vars, policy := r.policy, fuel := r.fuelLimit } }
  let session : Session := { config, coreVersion := library.version }
  return (evaluator.evaluateIndex points index session).compile

end CompileRequest

/-! ## §3 Responses -/

namespace CompileResponse

/-- The response to a request. -/
def ofRequest (disk : Disk) (r : CompileRequest) : CompileResponse :=
  match r.compile disk with
  | .ok graph => .success (r.returnOverride.getD graph.encode)
  | .error e => .failure e.toFatal

/-- The response to the text of a request. -/
def ofRequestText (disk : Disk) (text : String) : CompileResponse :=
  match CompileRequest.ofText text with
  | .ok r => ofRequest disk r
  | .error e => .failure (CompileError.request e).toFatal

end CompileResponse

end SqlWorkflow
