import SqlWorkflow.Evaluation.Script
import SqlWorkflow.Template.Engine

/-!
# Evaluating files

The evaluation of a file gives the actions and unit tests that it describes and its warnings, or
it fails as a whole.  A file can read other files of its project, but nothing else, and it runs
out of fuel instead of running forever.
-/

namespace SqlWorkflow.Evaluation

open Template

/-- What all files of a project have in common. -/
structure Options where
  vars : Dict String := ∅
  policy : UnsupportedPolicy := .warn
  /-- The steps that each file may take; no limit if absent. -/
  fuel : Option Nat := some 10000000
  deriving Repr, Inhabited

/-- Why the evaluation of a file fails. -/
inductive EvaluationError where
  | template (fault : Fault)
  | action (e : ActionError)
  deriving Repr, Inhabited

namespace EvaluationError

/-- The text of the error. -/
def message : EvaluationError → String
  | .template fault => "[J001] Jinja render error: " ++ fault.message
  | .action e => e.message

/-- What the evaluation said if it did not fail but broke off. -/
def panic? : EvaluationError → Option String
  | .template fault => fault.cause.panic?
  | .action _ => none

end EvaluationError

/-- What a file gives. -/
structure FileOutput where
  registrations : List Registration := []
  tests : List UnitTest := []
  warnings : List String := []
  deriving Repr, Inhabited

/-! ## §1 Functions of all files -/

/-- What every file can call. -/
inductive Helper where
  | variable | log | fail | warn | fromJson | toJson
  deriving DecidableEq, Repr, Inhabited

namespace Helper

/-- The name of the function. -/
def name : Helper → String
  | .variable => "var"
  | .log => "log"
  | .fail => "error"
  | .warn => "warn"
  | .fromJson => "from_json"
  | .toJson => "to_json"

/-- All of these functions. -/
def all : List Helper := [.variable, .log, .fail, .warn, .fromJson, .toJson]

/-- The function with a name. -/
def ofName? (name : String) : Option Helper := all.find? fun h => h.name == name

/-- The value of a variable of the project, or else a fallback. -/
def variableOf (vars : Dict String) : Take Value := do
  let name ← Take.text
  let fallback ← Take.optional
  match vars.get? name, fallback with
  | some value, _ => return .text value
  | none, some fallback => return fallback
  | none, none =>
    throw (.undefined (some ("[J002] Undefined variable '" ++ name ++
      "'. Define it in vars: of workflow_settings.yaml or pass it with --vars")))

/-- The JSON text of a value. -/
def jsonText : Take Value := do return .text (← Take.required).toJson.sorted.compact

/-- The value that a JSON text denotes. -/
def jsonValue : Take Value := do
  match Json.parse? (← Take.text) with
  | some value => return Value.ofJson value
  | none => throw CallError.malformedJson.cause

/-- Calls one of the functions. -/
def call (vars : Dict String) (h : Helper) (args : List Value) : Host Value := do
  match h with
  | .variable => Eval.lift (Take.all (variableOf vars) args)
  | .log => do
    let _ ← Eval.lift (Take.all Take.text args)
    return nothing
  | .fail => do
    let message ← Eval.lift (Take.all Take.text args)
    Eval.fail (CallError.raised message).cause
  | .warn => do
    let message ← Eval.lift (Take.all Take.text args)
    Host.warn message
    return nothing
  | .fromJson => Eval.lift (Take.all jsonValue args)
  | .toJson => Eval.lift (Take.all jsonText args)

end Helper

/-! ## §2 Environments -/

/-- What is needed to evaluate the files of a project. -/
structure Evaluator where
  project : ProjectFolder
  options : Options := {}
  /-- The names under which definitions see includes, and the paths of the includes. -/
  imports : List (String × String) := []
  deriving Inhabited

namespace Evaluator

/-- The evaluator whose definitions see an include too, under a name made from its file name. -/
def addImport (e : Evaluator) (path : String) : String × Evaluator :=
  let localName := Path.variableName (Path.baseName path)
  (localName, { e with imports := e.imports ++ [(localName, path)] })

/-- The statements that import every include. -/
def prelude (e : Evaluator) : String :=
  String.join (e.imports.map fun (localName, path) =>
    "\x7b%- import \"" ++ path ++ "\" as " ++ localName ++ " -%\x7d\n")

/-- The text of another file of the project, as templates embed it. -/
def loadTemplate (e : Evaluator) (path : String) : Except Cause (Option String) :=
  (e.project.read path).mapError fun error => (CallError.file error).cause

/-- Captures the text of a part of an action. -/
def capturePart (args : List Value) : Host Value := do
  let (text, name) ← Eval.lift (Take.all (do
    let text ← Take.written
    return (text, ← Take.text)) args)
  match Sql.Part.ofName? name with
  | some part =>
    Host.advance fun p => { p with parts := p.parts ++ [(part, Text.trim text)] }
    return nothing
  | none => Eval.fail (CallError.unknownPart name).cause

/-- The environment of includes, with some more functions and, if parts of an action are to be
captured, the filter that does it. -/
def environment (e : Evaluator) (functions : List String) (capturing : Bool)
    (call : Calls Progress → String → List Value → Host Value) : Environment Progress where
  functions := Helper.all.map Helper.name ++ functions
  call calls name args :=
    match Helper.ofName? name with
    | some h => h.call e.options.vars args
    | none => call calls name args
  filter? name :=
    if name = Helper.toJson.name then some (Helper.call e.options.vars .toJson)
    else if capturing ∧ name = Sql.PartBody.filterName then some capturePart
    else none
  method calls handle method args := callHandle e.options.policy calls handle method args
  load := e.loadTemplate

/-- The environment of files that call no further functions. -/
def plainEnvironment (e : Evaluator) (capturing : Bool) : Environment Progress :=
  e.environment [] capturing fun _ name _ => Eval.fail (.unknownFunction name)

/-- The environment of scripts. -/
def scriptEnvironment (e : Evaluator) (filePath : String) : Environment Progress :=
  let scope : ScriptScope := { project := e.project, policy := e.options.policy, filePath }
  e.environment (Declarator.all.map Declarator.name) false fun _ name args =>
    match Declarator.ofName? name with
    | some d => declareBy scope d args
    | none => Eval.fail (.unknownFunction name)

/-- The environment of the template of an action, whose context is the first one. -/
def actionEnvironment (e : Evaluator) : Environment Progress :=
  e.environment (Binding.all.map Binding.name) true fun _ name args =>
    match Binding.ofName? name with
    | some b => Host.call e.options.policy 0 b args
    | none => Eval.fail (.unknownFunction name)

/-- Runs a template, and gives the progress after it. -/
def run (e : Evaluator) (env : Environment Progress) (file source : String)
    (values : List (String × Value)) (start : Progress) (engine : Engine := .own) :
    Except EvaluationError Progress :=
  match engine.render env e.options.fuel file source values start with
  | .ok (_, progress) => .ok progress
  | .error fault => .error (.template fault)

/-! ## §3 Includes and scripts -/

/-- Evaluates an include on its own, which tells whether it can be imported; the warnings. -/
def probe (e : Evaluator) (path source : String) (engine : Engine := .own) :
    Except EvaluationError (List String) := do
  let progress ← e.run (e.plainEnvironment false) path source [] {} engine
  return progress.warnings

/-- The registrations of drafts, which must all be complete. -/
def finishAll : List Draft → Except EvaluationError (List Registration)
  | [] => .ok []
  | draft :: rest => do
    let first ← ((Draft.apply Draft.finish draft).1).mapError EvaluationError.action
    return first :: (← finishAll rest)

/-- Evaluates a script. -/
def runScript (e : Evaluator) (filePath source : String) (engine : Engine := .own) :
    Except EvaluationError FileOutput := do
  let progress ←
    e.run (e.scriptEnvironment filePath) filePath (e.prelude ++ source) [] {} engine
  let declared := progress.contexts.toList.filter fun ctx => !ctx.incremental
  let registrations ← finishAll (declared.map (·.draft))
  return { registrations, tests := progress.tests.toList, warnings := progress.warnings }

/-! ## §4 Actions and unit tests -/

/-- The values that the template of an action is given. -/
def literalValues (program : Sql.ActionProgram) : List (String × Value) :=
  [(Sql.Piece.literalsName, .list (program.literals.map .text))]

/-- Runs the template of an action. -/
def runTemplate (e : Evaluator) (env : Environment Progress) (program : Sql.ActionProgram)
    (start : Progress) (engine : Engine := .own) : Except EvaluationError Progress :=
  e.run env program.filePath (e.prelude ++ program.template) (literalValues program) start engine

/-- The draft of an action before its template is run. -/
def startDraft (program : Sql.ActionProgram) (kind : ActionKind) : Except ActionError Draft := do
  let draft ← Draft.declare kind program.name program.filePath
  let change : Draft.Change Unit :=
    match program.config, program.type.tableType? with
    | some config, _ => Draft.configure config
    | none, some type => Draft.setType type
    | none, none => pure ()
  match Draft.apply change draft with
  | (.ok (), draft) => return draft
  | (.error error, _) => throw error

/-- The text of the first query among the parts. -/
def firstQuery (parts : List (Sql.Part × String)) : String :=
  match parts.find? fun entry => entry.1 == .query with
  | some (_, text) => text
  | none => ""

/-- Gives a draft the text of a part.  Empty parts other than queries do not count. -/
def givePart (kind : ActionKind) (part : Sql.Part) (text : String) : Draft.Change Unit :=
  match part, kind with
  | .query, .operation => Draft.addQuery text
  | .query, .table | .query, .assertion => Draft.setQuery text
  | .preOps, _ => if text.isEmpty then pure () else Draft.addPreOp text
  | .postOps, _ => if text.isEmpty then pure () else Draft.addPostOp text
  | .incrementalWhere, _ => if text.isEmpty then pure () else Draft.setWhere text
  | _, _ => pure ()

/-- Gives a draft the texts of several parts. -/
def giveParts (kind : ActionKind) : List (Sql.Part × String) → Draft.Change Unit
  | [] => pure ()
  | (part, text) :: rest => do
    givePart kind part text
    giveParts kind rest

/-- The draft with its query of new rows, for which its template is run once more on a copy, and
nothing else is kept of that. -/
def withIncrementalQuery (e : Evaluator) (program : Sql.ActionProgram) (draft : Draft)
    (engine : Engine := .own) : Except EvaluationError Draft := do
  if draft.kind = .table ∧ draft.tableType = .incremental then
    let progress ← e.runTemplate e.actionEnvironment program
      { contexts := #[{ draft, incremental := true }] } engine
    let query := firstQuery progress.parts
    return (Draft.apply (Draft.setIncrementalQuery query) draft).2
  else return draft

/-- Evaluates the program of an action. -/
def runAction (e : Evaluator) (program : Sql.ActionProgram) (kind : ActionKind)
    (engine : Engine := .own) : Except EvaluationError FileOutput := do
  let draft ← (startDraft program kind).mapError .action
  let progress ← e.runTemplate e.actionEnvironment program { contexts := #[{ draft }] } engine
  let draft := (progress.contexts[0]?.map (·.draft)).getD draft
  let draft ← e.withIncrementalQuery program draft engine
  let finish : Draft.Change Registration := do
    giveParts draft.kind progress.parts
    Draft.finish
  let registration ← ((Draft.apply finish draft).1).mapError .action
  return { registrations := [registration], warnings := progress.warnings }

/-- The unit test with the texts of parts: the query is what is expected, and each input stands in
for the next of the names. -/
def testWith (test : UnitTest) : List String → List (Sql.Part × String) → UnitTest
  | _, [] => test
  | names, (.query, text) :: rest => testWith { test with expectedQuery := text } names rest
  | name :: names, (.input, text) :: rest => testWith (test.setInput name text) names rest
  | names, _ :: rest => testWith test names rest

/-- Evaluates the program of a unit test. -/
def runTest (e : Evaluator) (program : Sql.ActionProgram) (engine : Engine := .own) :
    Except EvaluationError FileOutput := do
  let test ← (UnitTest.declare program.name program.filePath).mapError .action
  let test ← match program.config with
    | some config => (test.configure config).mapError .action
    | none => pure test
  let progress ← e.runTemplate (e.plainEnvironment true) program {} engine
  return {
    tests := [testWith test program.inputNames progress.parts]
    warnings := progress.warnings }

/-- Evaluates a definition file. -/
def evaluate (e : Evaluator) (program : Sql.Program) (engine : Engine := .own) :
    Except EvaluationError FileOutput :=
  match program with
  | .script filePath source => e.runScript filePath source engine
  | .action program =>
    match program.type.kind? with
    | some kind => e.runAction program kind engine
    | none => e.runTest program engine

end Evaluator

end SqlWorkflow.Evaluation
