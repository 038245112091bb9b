import SqlWorkflow.CommandLine.Command
import SqlWorkflow.Compile.Basic
import SqlWorkflow.Compile.Host
import SqlWorkflow.Project.Credentials
import SqlWorkflow.Schedule.Basic

/-!
# Running commands

A command reads files and writes to the two outputs of the program.  Its exit status tells whether
all is well (0), the project has problems (1), or the command itself failed (2).
-/

namespace SqlWorkflow.CommandLine

/-- What the program leaves behind. -/
structure Outcome where
  exit : Nat := 0
  stdout : String := ""
  stderr : String := ""
  deriving DecidableEq, Repr, Inhabited

/-- Why a command fails. -/
inductive CommandError where
  | noProjectFolder (path : String) (e : AccessError)
  | malformedVars (e : DecodeError)
  /-- A variable must be a single value. -/
  | badVar (name : String)
  | compile (e : HostError)
  | unreadableSchedules (path : String) (e : AccessError)
  | malformedSchedules (e : SchedulesError)
  deriving Repr

namespace CommandError

/-- What is said when a file cannot be read. -/
def unreadable (path : String) (e : AccessError) : String :=
  "[E016] Failed to read '" ++ path ++ "': " ++ e.message

/-- The text of the error. -/
def message : CommandError → String
  | .noProjectFolder path e => "Project directory not found: " ++ path ++ ": " ++ e.message
  | .malformedVars e => "Invalid --vars JSON: " ++ e.message .jsonText
  | .badVar name =>
    "Invalid --vars JSON: value of '" ++ name ++ "' must be a string, number or boolean"
  | .compile e => "Compilation failed: " ++ e.message
  | .unreadableSchedules path e =>
    "Failed to load schedules: " ++ unreadable path e ++ ": " ++ e.message
  | .malformedSchedules e => "Failed to load schedules: " ++ e.message

end CommandError

/-- Lines of text. -/
def lines (texts : List String) : String := String.join (texts.map (· ++ "\n"))

/-- The outcome of a command that fails after it wrote some lines. -/
def failed (before : List String) (e : CommandError) : Outcome :=
  { exit := 2, stderr := lines (before ++ ["Error: " ++ e.message]) }

/-! ## §1 Compiling -/

/-- The variables that a JSON text gives; values other than texts are kept as JSON writes them. -/
def varsOf (text : Option String) : Except CommandError (Dict String) := do
  match text with
  | none => return ∅
  | some text =>
    let values ← (Decode.whole (Decode.dict FatalError.anyJson) .jsonText
      (Json.read text)).mapError .malformedVars
    let entries ← values.entries.mapM fun (name, value) =>
      match value with
      | .str s => .ok (name, s)
      | .arr _ | .obj _ => .error (.badVar name)
      | value => .ok (name, value.compact)
    return Dict.ofList entries

/-- The request that a compile makes. -/
def requestOf (disk : Disk) (folder : String) (o : CompileOptions) :
    Except CommandError CompileRequest := do
  let place ← (disk.locate folder).mapError (.noProjectFolder folder)
  let vars ← varsOf o.vars
  return {
    projectFolder := Disk.pathOf place
    schemaSuffix := o.schemaSuffix
    forceLegacy := o.forceLegacy
    vars
    mode := if o.strict then .strict else .fallbackToLegacy
    policy := o.policy }

/-- How a worker answers a request.  It is stopped at once if it gets no time. -/
def workerRun (disk : Disk) (seconds : Nat) (r : CompileRequest) : WorkerRun :=
  if seconds = 0 then .stopped 0
  else .exited 0 (CompileResponse.ofRequestText disk r.encode).encode

/-- What is said of the actions of a graph. -/
def summary (g : CompiledGraph) : List String :=
  let counts :=
    [ ("tables", g.tables.length), ("operations", g.operations.length),
      ("assertions", g.assertions.length), ("declarations", g.declarations.length),
      ("notebooks", g.notebooks.length) ]
  let counts := counts.filter fun entry => 0 < entry.2
  ["Compiled " ++ toString g.actionCount ++ " actions"] ++
    counts.map (fun (label, count) => "  " ++ label ++ ": " ++ toString count) ++
    ["  fingerprint: " ++ g.fingerprint]

/-- What is said of the errors of a graph. -/
def complaints (e : GraphErrors) : List String :=
  let counts := toString e.compilationErrors.length ++ " compilation errors, " ++
    toString e.validationErrors.length ++ " validation errors"
  e.warnings.map (fun w => "Warning: " ++ w.fileName ++ ": " ++ w.message) ++
    e.compilationErrors.map (fun m => "  ✗ " ++ m.fileName ++ ": " ++ m.message) ++
    e.validationErrors.map (fun m => "  ✗ " ++ m.fileName ++ ": " ++ m.message) ++
    (if e.isFatal then ["", counts] else [])

/-- Compiles a project and shows the graph. -/
def compile (disk : Disk) (c : Command) (o : CompileOptions) : Outcome :=
  match requestOf disk c.projectFolder o with
  | .error e => failed [] e
  | .ok r =>
    let before :=
      if c.verbose then
        ["[verbose] Compiling " ++ r.projectFolder ++ " (timeout " ++
          toString o.timeoutSeconds ++ "s)"]
      else []
    match (workerRun disk o.timeoutSeconds r).graph with
    | .error e => failed before (.compile e)
    | .ok g =>
      let exit := if g.graphErrors.isFatal then 1 else 0
      if o.json then { exit, stdout := lines [g.encodePretty], stderr := lines before }
      else
        { exit, stdout := lines (summary g)
          stderr := lines (before ++ complaints g.graphErrors) }

/-! ## §2 Validating -/

/-- The path of a file: the one that was given, or the usual one in the project. -/
def fileOf (c : Command) (file : Option String) (usual : String) : String :=
  file.getD (Path.append c.projectFolder usual)

/-- The usual name of the file with schedules. -/
def schedulesFile : String := "schedules.json"

/-- The usual name of the file with credentials. -/
def credentialsFile : String := ".df-credentials.json"

/-- What is said first if much is said. -/
def announcement (c : Command) (what : String) : List String :=
  if c.verbose then ["[verbose] Validating " ++ what] else []

/-- Validates schedules. -/
def validateSchedules (disk : Disk) (c : Command) (file : Option String) : Outcome :=
  let path := fileOf c file schedulesFile
  let before := announcement c path
  match disk.read path with
  | .error e => failed before (.unreadableSchedules path e)
  | .ok text =>
    match Schedules.ofText path text with
    | .error e => failed before (.malformedSchedules e)
    | .ok schedules =>
      match schedules.problems with
      | [] =>
        { stdout := lines ["✓ " ++ toString schedules.schedules.length ++ " schedules are valid"]
          stderr := lines before }
      | problems =>
        { exit := 1
          stderr := lines (before ++ problems.map (fun p => "  ✗ " ++ p.message) ++
            ["", toString problems.length ++ " problems found in " ++ path]) }

/-- What is wrong with the credentials in a file, if anything. -/
def credentialsProblem? (disk : Disk) (warehouse path : String) : Option String :=
  if !disk.isFile path then some CredentialsError.noFile.message
  else
    match disk.read path with
    | .error e => some (CommandError.unreadable path e)
    | .ok text =>
      match Credentials.ofText warehouse text with
      | .ok _ => none
      | .error e => some e.message

/-- Validates credentials. -/
def validateCredentials (disk : Disk) (c : Command) (file : Option String) (warehouse : String) :
    Outcome :=
  let path := fileOf c file credentialsFile
  let before := announcement c (warehouse ++ " credentials in " ++ path)
  match credentialsProblem? disk warehouse path with
  | none =>
    { stdout := lines ["✓ " ++ warehouse ++ " credentials are valid"], stderr := lines before }
  | some problem => { exit := 1, stderr := lines (before ++ ["  ✗ " ++ problem]) }

/-! ## §3 All commands -/

/-- The paths of what a command reads. -/
def Command.reads (stdin : String) (c : Command) : List String :=
  match c.action with
  | .compile _ => [c.projectFolder]
  | .validateSchedules file => [fileOf c file schedulesFile]
  | .validateCredentials file _ => [fileOf c file credentialsFile]
  | .worker =>
    match CompileRequest.ofText stdin with
    | .ok r => [r.projectFolder]
    | .error _ => []

/-- The text that is shown when help is asked for. -/
def usage : String := "<usage>"

/-- Runs a command. -/
def Command.run (disk : Disk) (stdin : String) (c : Command) : Outcome :=
  match c.action with
  | .compile options => compile disk c options
  | .validateSchedules file => validateSchedules disk c file
  | .validateCredentials file warehouse => validateCredentials disk c file warehouse
  | .worker => { stdout := (CompileResponse.ofRequestText disk stdin).encode }

/-- Runs the program. -/
def run (disk : Disk) (folder : Option String) (stdin : String) (args : List String) : Outcome :=
  match Command.ofArguments folder args with
  | .ok c => c.run disk stdin
  | .error .version =>
    { stdout := lines [grammar.name ++ " " ++ CoreLibrary.current.version] }
  | .error .help => { stdout := usage }
  | .error .refused => { exit := 2, stderr := usage }

end SqlWorkflow.CommandLine
