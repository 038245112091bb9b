import SqlWorkflow.Action.Registration
import SqlWorkflow.Digest.Sha256
import SqlWorkflow.Project.Config

/-!
# Compiled graphs

A compiled graph is everything a project has to say to a warehouse: its actions with all names
resolved, its unit tests, and what is wrong with it.  It is exchanged as JSON, and its fingerprint
is the digest of its compact JSON text.
-/

namespace SqlWorkflow

/-! ## §1 Actions -/

/-- What all actions of a graph have in common. -/
structure ActionHeader where
  /-- The name in the warehouse. -/
  target : Target
  /-- The name that the author gave. -/
  canonicalTarget : Target
  fileName : String
  dependencyTargets : List Target := []
  tags : List String := []
  disabled : Bool := false
  descriptor : Option ActionDescriptor := none
  deriving Repr, Inhabited

/-- A table of the graph. -/
structure Table where
  header : ActionHeader
  type : TableType
  query : String
  incrementalQuery : Option String := none
  preOps : List String := []
  postOps : List String := []
  incrementalWhere : Option String := none
  isProtected : Bool := false
  uniqueKey : List String := []
  bigquery : Option BigQueryOptions := none
  deriving Repr, Inhabited

/-- Statements that are run. -/
structure Operation where
  header : ActionHeader
  queries : List String
  hasOutput : Bool := false
  deriving Repr, Inhabited

/-- A query that must find no rows. -/
structure Assertion where
  header : ActionHeader
  query : String
  /-- The table whose checks the assertion was made from. -/
  parentAction : Option Target := none
  deriving Repr, Inhabited

/-- A table that exists already. -/
structure Declaration where
  header : ActionHeader
  deriving Repr, Inhabited

/-- A notebook that is run. -/
structure Notebook where
  header : ActionHeader
  contents : String
  deriving Repr, Inhabited

/-- An action of any kind. -/
inductive Action where
  | table (a : Table)
  | operation (a : Operation)
  | assertion (a : Assertion)
  | declaration (a : Declaration)
  | notebook (a : Notebook)
  deriving Repr, Inhabited

/-- What all actions have in common. -/
def Action.header : Action → ActionHeader
  | .table a => a.header
  | .operation a => a.header
  | .assertion a => a.header
  | .declaration a => a.header
  | .notebook a => a.header

/-- A unit test whose query is complete. -/
structure CompiledTest where
  name : String
  fileName : String
  testQuery : String := ""
  expectedOutputQuery : String := ""
  deriving DecidableEq, Repr, Inhabited

/-! ## §2 Problems -/

/-- Something to say about a file. -/
structure FileMessage where
  fileName : String
  message : String
  deriving DecidableEq, Repr, Inhabited

/-- A problem of the graph as a whole. -/
structure ValidationError where
  fileName : String
  message : String
  actionTarget : Option Target := none
  deriving DecidableEq, Repr, Inhabited

/-- Everything that is wrong with a graph. -/
structure GraphErrors where
  /-- Files that could not be evaluated. -/
  compilationErrors : List FileMessage := []
  validationErrors : List ValidationError := []
  warnings : List FileMessage := []
  deriving DecidableEq, Repr, Inhabited

/-- Must the graph not be run? -/
def GraphErrors.isFatal (e : GraphErrors) : Bool :=
  !e.compilationErrors.isEmpty || !e.validationErrors.isEmpty

/-! ## §3 The graph -/

/-- The compiled graph of a project. -/
structure CompiledGraph where
  coreVersion : String
  projectConfig : ProjectConfig
  tables : List Table := []
  operations : List Operation := []
  assertions : List Assertion := []
  declarations : List Declaration := []
  notebooks : List Notebook := []
  tests : List CompiledTest := []
  graphErrors : GraphErrors := {}
  deriving Repr, Inhabited

/-- Actions are ordered by target, then by file. -/
def ActionHeader.le (a b : ActionHeader) : Bool :=
  ((a.target.order b.target).then (compare a.fileName b.fileName)).isLE

/-- Unit tests are ordered by name, then by file. -/
def CompiledTest.le (a b : CompiledTest) : Bool :=
  ((compare a.name b.name).then (compare a.fileName b.fileName)).isLE

namespace CompiledGraph

/-- The graph of the given actions and tests, each kind in order. -/
def assemble (coreVersion : String) (projectConfig : ProjectConfig) (actions : List Action)
    (tests : List CompiledTest) (graphErrors : GraphErrors) : CompiledGraph where
  coreVersion := coreVersion
  projectConfig := projectConfig
  tables := (actions.filterMap fun
    | .table a => some a
    | _ => none).mergeSort fun a b => a.header.le b.header
  operations := (actions.filterMap fun
    | .operation a => some a
    | _ => none).mergeSort fun a b => a.header.le b.header
  assertions := (actions.filterMap fun
    | .assertion a => some a
    | _ => none).mergeSort fun a b => a.header.le b.header
  declarations := (actions.filterMap fun
    | .declaration a => some a
    | _ => none).mergeSort fun a b => a.header.le b.header
  notebooks := (actions.filterMap fun
    | .notebook a => some a
    | _ => none).mergeSort fun a b => a.header.le b.header
  tests := tests.mergeSort CompiledTest.le
  graphErrors := graphErrors

/-- What all actions have in common, for each action in the order of the graph. -/
def headers (g : CompiledGraph) : List ActionHeader :=
  g.tables.map (·.header) ++ g.operations.map (·.header) ++ g.assertions.map (·.header) ++
    g.declarations.map (·.header) ++ g.notebooks.map (·.header)

/-- The targets of all actions in the order of the graph. -/
def targets (g : CompiledGraph) : List Target := g.headers.map (·.target)

/-- The number of actions. -/
def actionCount (g : CompiledGraph) : Nat := g.headers.length

end CompiledGraph

end SqlWorkflow
