import SqlWorkflow.Action.Error

/-!
# Registrations

What the evaluation of a file hands over for one action.  Texts may still hold markers in the
place of names.
-/

namespace SqlWorkflow

/-- What a registration says about a table. -/
structure TableBody where
  type : TableType := .table
  query : String := ""
  incrementalQuery : Option String := none
  preOps : List String := []
  postOps : List String := []
  incrementalWhere : Option String := none
  isProtected : Bool := false
  uniqueKey : List String := []
  assertions : TableAssertions := {}
  bigquery : Option BigQueryOptions := none
  deriving DecidableEq, Repr, Inhabited

/-- What a registration says besides what all actions have in common. -/
inductive Payload where
  | table (body : TableBody)
  | operation (queries : List String) (hasOutput : Bool)
  | assertion (query : String)
  | declaration
  | notebook (contents : String)
  deriving DecidableEq, Repr, Inhabited

/-- The kind of action. -/
def Payload.kind : Payload → ActionKind
  | .table _ => .table
  | .operation _ _ => .operation
  | .assertion _ => .assertion
  | .declaration => .declaration
  | .notebook _ => .notebook

/-- An action as a file declares it. -/
structure Registration where
  filePath : String
  name : String
  schema : Option String := none
  database : Option String := none
  dependencies : List TargetRef := []
  descriptor : ActionDescriptor := {}
  tags : List String := []
  disabled : Bool := false
  payload : Payload
  deriving Repr, Inhabited

/-- A unit test as a file declares it. -/
structure UnitTest where
  filePath : String
  name : String
  /-- The dataset that is tested. -/
  dataset : Option TargetRef := none
  /-- The query that stands in for each referenced name. -/
  inputs : Dict String := ∅
  expectedQuery : String := ""
  deriving DecidableEq, Repr, Inhabited

namespace UnitTest

/-- A unit test without a dataset and without inputs. -/
def declare (name filePath : String) : Except ActionError UnitTest :=
  if name.isEmpty then .error (.noName .test filePath) else .ok { filePath, name }

/-- The unit test with the keys of a configuration applied.  Tags and dependencies do not matter;
keys that mean something else are refused. -/
def configure (test : UnitTest) (config : ActionConfig) : Except ActionError UnitTest := do
  match config.keysUnusedByTests.head? with
  | some key => throw (.invalid test.name (.testKey key))
  | none => pure ()
  match config.type with
  | none | some .test => pure ()
  | some type => throw (.invalid test.name (.wrongType type .test))
  let name ← match config.name with
    | none => pure test.name
    | some name => if name.isEmpty then throw (.noName .test test.filePath) else pure name
  let dataset := match config.dataset with
    | none => test.dataset
    | some spec => some spec.reference
  return { test with name, dataset }

/-- The unit test with a query for a name, instead of an earlier one. -/
def setInput (test : UnitTest) (name query : String) : UnitTest :=
  { test with inputs := test.inputs.insert name query }

/-- The query that stands in for a reference. -/
def inputFor? (test : UnitTest) (reference : TargetRef) : Option String :=
  (test.inputs.entries.find? fun (name, _) => TargetRef.parse name = reference).map (·.2)

end UnitTest

end SqlWorkflow
