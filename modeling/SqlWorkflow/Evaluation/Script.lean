import SqlWorkflow.Evaluation.Progress

/-!
# Scripts

A script declares any number of actions and unit tests.  Each declaration gives a handle, and the
methods of the handle describe what was declared and give the handle again.  A query may be a
function of the template; it is called at once, with the context of the action.  The query of an
incremental table is called a second time, on a copy of the action, for the query of new rows.
-/

namespace SqlWorkflow.Evaluation

open Template

/-- What a script can see of its surroundings. -/
structure ScriptScope where
  project : ProjectFolder
  policy : UnsupportedPolicy
  /-- The path of the script. -/
  filePath : String

/-! ## §1 Drafts -/

/-- Adds a statement to an operation, or sets the query of another action. -/
def giveQuery (query : String) : Draft.Change Unit := do
  match (← get).kind with
  | .operation => Draft.addQuery query
  | _ => Draft.setQuery query

/-- A new draft with what a configuration says about it, unless that is nothing. -/
def draftOf (what : String) (kind : ActionKind) (filePath name : String)
    (config : List (String × Json)) : Except CallError Draft := do
  let draft ← (Draft.declare kind name filePath).mapError .action
  if config.isEmpty then return draft
  else
    let config ← readJson what ActionConfig.decode (.obj config)
    let ((), draft) ← act (Draft.configure config) draft
    return draft

/-- The draft after the second argument of its declaration: a configuration, or its query. -/
def draftWith (what : String) (second : Option Value) (draft : Draft) :
    Except CallError Draft := do
  match second with
  | none => return draft
  | some v =>
    match v.kind with
    | .map =>
      let config ← readValue what ActionConfig.decode v
      let ((), draft) ← act (Draft.configure config) draft
      return draft
    | _ =>
      let queries ← textsOf v
      let ((), draft) ← actAll (fun q => giveQuery (Text.trim q)) queries draft
      return draft

/-! ## §2 Notebooks -/

/-- The cell of a notebook without its outputs. -/
def withoutOutputs : Json → Json
  | .obj members =>
    .obj (members.map fun (name, value) => (name, if name = "outputs" then .arr [] else value))
  | cell => cell

/-- The notebook without the outputs of its cells. -/
def strippedNotebook (notebook : Json) : Except NotebookFault Json :=
  match notebook with
  | .obj members =>
    match lookupEntry "cells" members with
    | some (.arr cells) =>
      .ok (.obj (members.map fun (name, value) =>
        (name, if name = "cells" then .arr (cells.map withoutOutputs) else value)))
    | _ => .error .noCells
  | _ => .error .noCells

/-- The text of the notebook in a file of the project. -/
def notebookText (project : ProjectFolder) (path : String) : Except CallError String := do
  match ← (project.read path).mapError .file with
  | none => throw (.notebook path .missing)
  | some text =>
    match Json.parse? text with
    | none => throw (.notebook path .malformed)
    | some notebook =>
      let stripped ← (strippedNotebook notebook).mapError (.notebook path)
      return stripped.sorted.compact

/-! ## §3 Declarations -/

/-- What a script can declare. -/
inductive Declarator where
  | publish | operate | assert | declare | notebook | test
  deriving DecidableEq, Repr, Inhabited

namespace Declarator

/-- The name of the function. -/
def name : Declarator → String
  | .publish => "publish"
  | .operate => "operate"
  | .assert => "assert"
  | .declare => "declare"
  | .notebook => "notebook"
  | .test => "test"

/-- All functions that declare something. -/
def all : List Declarator := [.publish, .operate, .assert, .declare, .notebook, .test]

/-- The function with a name. -/
def ofName? (name : String) : Option Declarator := all.find? fun d => d.name == name

end Declarator

/-- The draft that a declaration with any number of arguments makes. -/
def declaredAction (s : ScriptScope) (what : String) (kind : ActionKind) (args : List Value) :
    Except CallError Draft := do
  match args with
  | [] => throw (.noName what)
  | first :: rest =>
    let (name, config) ← nameAndConfig what first
    let draft ← draftOf what kind s.filePath name config
    draftWith what rest.head? draft

/-- The draft of a notebook. -/
def declaredNotebook (s : ScriptScope) (spec : Value) (file : Option String) :
    Except CallError Draft := do
  let (name, config) ← nameAndConfig "notebook" spec
  let file ← match lookupEntry "filename" config, file with
    | some (.str file), _ => pure file
    | _, some file => pure file
    | _, none => throw .noFilename
  let contents ← notebookText s.project (Path.join (Path.dirName s.filePath) file)
  let config := config.filter fun entry => entry.1 != "filename"
  let draft ← draftOf "notebook" .notebook s.filePath name config
  let ((), draft) ← act (Draft.setNotebookContents contents) draft
  return draft

/-- The unit test that a declaration makes. -/
def declaredTest (s : ScriptScope) (spec : Value) : Except CallError UnitTest := do
  let (name, config) ← nameAndConfig "test" spec
  let test ← (UnitTest.declare name s.filePath).mapError .action
  if config.isEmpty then return test
  else
    let config ← readJson "test" ActionConfig.decode (.obj config)
    (test.configure config).mapError .action

/-- Takes up a declared action, and gives a handle of it. -/
def takeUp (draft : Draft) : Host Value := do
  let index ← Host.newContext { draft }
  Host.newHandle (.action index) ""

/-- Calls a function that declares something. -/
def declareBy (s : ScriptScope) (d : Declarator) (args : List Value) : Host Value := do
  match d with
  | .publish => takeUp (← Host.lift (declaredAction s "publish" .table args))
  | .operate => takeUp (← Host.lift (declaredAction s "operate" .operation args))
  | .assert => takeUp (← Host.lift (declaredAction s "assert" .assertion args))
  | .declare => do
    let spec ← Eval.lift (Take.all Take.required args)
    let (name, config) ← Host.lift (nameAndConfig "declare" spec)
    takeUp (← Host.lift (draftOf "declare" .declaration s.filePath name config))
  | .notebook => do
    let (spec, file) ← Eval.lift (Take.all (do
      let spec ← Take.required
      return (spec, ← Take.writtenIfAny)) args)
    takeUp (← Host.lift (declaredNotebook s spec file))
  | .test => do
    let spec ← Eval.lift (Take.all Take.required args)
    let test ← Host.lift (declaredTest s spec)
    let index := (← Host.progress).tests.size
    Host.advance fun p => { p with tests := p.tests.push test }
    Host.newHandle (.test index) ""

/-! ## §4 Methods of actions -/

/-- The value that is meant by an argument: itself, or what it gives when it is called with the
context of an action. -/
def contextual (calls : Calls Progress) (index : Nat) (v : Value) : Host Value := do
  match v.kind with
  | .text | .sequence | .none | .undefined => return v
  | _ =>
    let ctx ← Host.context index
    let handle ← Host.newHandle (.context index) ("<" ++ ctx.draft.kind.name ++ " context>")
    calls.call v [handle]

/-- The texts of all arguments, without blanks at their ends. -/
def contextualTexts (calls : Calls Progress) (index : Nat) : List Value → Host (List String)
  | [] => pure []
  | v :: rest => do
    let texts ← Host.lift (textsOf (← contextual calls index v))
    return texts.map Text.trim ++ (← contextualTexts calls index rest)

/-- Gives an action its query; an incremental table gets the query of new rows as well. -/
def queryMethod (calls : Calls Progress) (index : Nat) (args : List Value) : Host Unit := do
  let kind := (← Host.context index).draft.kind
  if kind = .declaration ∨ kind = .notebook then Host.lift (throw (.hasNoQuery kind))
  match args with
  | [] => Host.lift (throw .noQueryGiven)
  | v :: _ =>
    let queries ← Host.lift (textsOf (← contextual calls index v))
    Host.describe index (actAll (fun q => giveQuery (Text.trim q)) queries)
    let draft := (← Host.context index).draft
    if draft.kind = .table ∧ draft.tableType = .incremental then
      let copy ← Host.newContext { draft, incremental := true }
      let queries ← Host.lift (textsOf (← contextual calls copy v))
      let query := Text.trim (Text.join "\n" queries)
      Host.describe index (act (Draft.setIncrementalQuery query))

/-- Describes the columns of an action. -/
def columnsMethod (args : List Value) : Act Unit := do
  match args with
  | [] => throw .noColumns
  | v :: _ =>
    let columns ← readValue "columns" (Decode.dict ColumnDoc.decode) v
    describeColumns columns.entries

/-- Calls a method of an action. -/
def actionMethod (calls : Calls Progress) (index : Nat) (method : String) (args : List Value) :
    Host Unit := do
  let on (x : Act Unit) : Host Unit := Host.describe index x
  let text : Except CallError String := textOf (method ++ "()") args.head?
  match method with
  | "query" => queryMethod calls index args
  | "queries" => do
    if (← Host.context index).draft.kind ≠ .operation then Host.lift (throw .notAnOperation)
    let queries ← contextualTexts calls index args
    on (actAll Draft.addQuery queries)
  | "dependencies" => on do
    let names ← allTexts args
    actAll (fun name => Draft.addDependency (TargetRef.parse name)) names
  | "description" => on do act (Draft.setDescription (← text))
  | "columns" => on (columnsMethod args)
  | "tags" => on do act (Draft.addTags (← allTexts args))
  | "disabled" => on (act (Draft.setDisabled (flagOf args)))
  | "type" => on do act (Draft.setType (← tableTypeOf args))
  | "schema" => on do act (Draft.setSchema (← text))
  | "database" => on do act (Draft.setDatabase (← text))
  | "config" => on do act (Draft.configure (← readMerged "config" ActionConfig.decode args))
  | "preOps" => do
    let statements ← contextualTexts calls index args
    on (actAll Draft.addPreOp statements)
  | "postOps" => do
    let statements ← contextualTexts calls index args
    on (actAll Draft.addPostOp statements)
  | "where" => do
    let texts ← contextualTexts calls index args
    on (act (Draft.setWhere (Text.join "\n" texts)))
  | "hasOutput" => on (act (Draft.setHasOutput (flagOf args)))
  | "uniqueKey" => on do act (Draft.setUniqueKey (← allTexts args))
  | "protected" => on (act (Draft.setProtected (flagOf args)))
  | _ => Eval.fail (.unknownMethod (← Host.context index).draft.kind.name method)

/-! ## §5 Methods of unit tests -/

/-- The text of a query: text, or what a function of the template writes. -/
def queryText (calls : Calls Progress) (what : String) (v : Option Value) : Host String := do
  match v with
  | none => Host.lift (throw (.noInputQuery what))
  | some v =>
    let rendered ← match v.text? with
      | some s => pure (Value.text s)
      | none => calls.call v []
    return Text.trim rendered.write

/-- What a method call does to a unit test. -/
def testChange (calls : Calls Progress) (method : String) (args : List Value) :
    Host (UnitTest → Except CallError UnitTest) := do
  match method with
  | "dataset" => do
    let reference ← Host.lift (referenceOf args)
    return fun test => .ok { test with dataset := some reference }
  | "input" => do
    let name ← Host.lift (textOf "input()" args.head?)
    let query ← queryText calls "input" args[1]?
    return fun test => .ok (test.setInput name query)
  | "expect" => do
    let query ← queryText calls "expect" args.head?
    return fun test => .ok { test with expectedQuery := query }
  | "config" => do
    let config ← Host.lift (readMerged "config" ActionConfig.decode args)
    return fun test => (test.configure config).mapError .action
  | _ => Eval.fail (.unknownMethod "test" method)

/-- Calls a method of a unit test. -/
def testMethod (calls : Calls Progress) (index : Nat) (method : String) (args : List Value) :
    Host Unit := do
  let change ← testChange calls method args
  let test ← Host.lift (change ((← Host.progress).tests[index]?.getD default))
  Host.advance fun p => { p with tests := p.tests.setIfInBounds index test }

/-! ## §6 Methods of all handles -/

/-- Calls a method of what a handle stands for. -/
def callHandle (policy : UnsupportedPolicy) (calls : Calls Progress) (handle : Handle)
    (method : String) (args : List Value) : Host Value := do
  match (← Host.progress).objects[handle.id]? with
  | some (.action index) =>
    actionMethod calls index method args
    return .handle handle
  | some (.test index) =>
    testMethod calls index method args
    return .handle handle
  | some (.context index) =>
    match Binding.ofName? method with
    | some b => Host.call policy index b args
    | none => Eval.fail (.unknownMethod "context" method)
  | none => Eval.fail (.unknownMethod "plain object" method)

end SqlWorkflow.Evaluation
