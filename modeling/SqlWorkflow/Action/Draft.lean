import SqlWorkflow.Action.Registration

/-!
# Drafts of actions

A draft is an action while its file is still being evaluated.  It is declared, configured by any
number of changes, and finished once; after that every further change is refused.

A change either applies or fails.  A change that fails because of its value still counts as a use
of the draft.
-/

namespace SqlWorkflow

/-- How far a draft has come. -/
inductive DraftStage where
  | declared
  /-- At least one change was made. -/
  | configured
  /-- The draft is finished and takes no more changes. -/
  | compiled
  deriving DecidableEq, Repr, Inhabited

/-- An action under construction. -/
structure Draft where
  stage : DraftStage := .declared
  kind : ActionKind
  filePath : String
  name : String
  schema : Option String := none
  database : Option String := none
  tableType : TableType := .table
  descriptor : ActionDescriptor := {}
  tags : List String := []
  disabled : Bool := false
  dependencies : List TargetRef := []
  query : Option String := none
  incrementalQuery : Option String := none
  /-- The statements of an operation. -/
  queries : List String := []
  preOps : List String := []
  postOps : List String := []
  incrementalWhere : Option String := none
  isProtected : Bool := false
  hasOutput : Bool := false
  uniqueKey : List String := []
  assertions : TableAssertions := {}
  bigquery : Option BigQueryOptions := none
  notebookContents : Option String := none
  deriving Repr, Inhabited

namespace Draft

/-- A change of a draft that may fail; the draft after a failure is kept too. -/
abbrev Change (α : Type) := ExceptT ActionError (StateM Draft) α

/-- The outcome of a change and the draft after it. -/
def apply {α : Type} (change : Change α) (d : Draft) : Except ActionError α × Draft :=
  StateT.run (ExceptT.run change) d

/-- A new draft. -/
def declare (kind : ActionKind) (name filePath : String) : Except ActionError Draft :=
  if name.isEmpty then .error (.noName (.action kind) filePath)
  else .ok { kind, filePath, name }

/-- A change fails because of the configuration. -/
def refuse {α : Type} (fault : ConfigFault) : Change α := do
  throw (.invalid (← get).name fault)

/-- Uses the draft, unless it is finished. -/
def touch : Change Unit := do
  let d ← get
  if d.stage = .compiled then throw (.isSealed d.name)
  else set { d with stage := .configured }

/-- A change that cannot fail unless the draft is finished. -/
def change (f : Draft → Draft) : Change Unit := do
  touch
  modify f

/-! ## §1 Single changes -/

/-- Sets the type of a table. -/
def setType (type : TableType) : Change Unit := do
  touch
  let kind := (← get).kind
  if kind ≠ .table then refuse (.noTableType kind)
  else modify fun d => { d with tableType := type }

/-- Sets the query. -/
def setQuery (query : String) : Change Unit := change fun d => { d with query := some query }

/-- Sets the query for new rows only. -/
def setIncrementalQuery (query : String) : Change Unit :=
  change fun d => { d with incrementalQuery := some query }

/-- Adds a statement to an operation. -/
def addQuery (query : String) : Change Unit :=
  change fun d => { d with queries := d.queries ++ [query] }

/-- Adds a dependency. -/
def addDependency (reference : TargetRef) : Change Unit :=
  change fun d => { d with dependencies := d.dependencies ++ [reference] }

/-- Sets the schema. -/
def setSchema (schema : String) : Change Unit := change fun d => { d with schema := some schema }

/-- Sets the database. -/
def setDatabase (database : String) : Change Unit :=
  change fun d => { d with database := some database }

/-- Sets the description. -/
def setDescription (description : String) : Change Unit :=
  change fun d => { d with descriptor := { d.descriptor with description := some description } }

/-- Sets the documentation of a column. -/
def setColumn (column : String) (doc : ColumnDoc) : Change Unit :=
  change fun d =>
    { d with descriptor := { d.descriptor with columns := d.descriptor.columns.insert column doc } }

/-- Adds tags. -/
def addTags (tags : List String) : Change Unit := change fun d => { d with tags := d.tags ++ tags }

/-- Says whether the action is left out of runs. -/
def setDisabled (disabled : Bool) : Change Unit := change fun d => { d with disabled }

/-- Adds a statement to run before the action. -/
def addPreOp (statement : String) : Change Unit :=
  change fun d => { d with preOps := d.preOps ++ [statement] }

/-- Adds a statement to run after the action. -/
def addPostOp (statement : String) : Change Unit :=
  change fun d => { d with postOps := d.postOps ++ [statement] }

/-- Sets the condition on new rows. -/
def setWhere (clause : String) : Change Unit :=
  change fun d => { d with incrementalWhere := some clause }

/-- Says whether the table must never be rebuilt. -/
def setProtected (isProtected : Bool) : Change Unit := change fun d => { d with isProtected }

/-- Says whether an operation has output. -/
def setHasOutput (hasOutput : Bool) : Change Unit := do
  touch
  if (← get).kind ≠ .operation then refuse .outputFlag
  else modify fun d => { d with hasOutput }

/-- Sets the key by which new rows replace old ones. -/
def setUniqueKey (uniqueKey : List String) : Change Unit := change fun d => { d with uniqueKey }

/-- Sets the warehouse options. -/
def setBigquery (options : BigQueryOptions) : Change Unit :=
  change fun d => { d with bigquery := some options }

/-- Sets the contents of a notebook. -/
def setNotebookContents (contents : String) : Change Unit :=
  change fun d => { d with notebookContents := some contents }

/-! ## §2 Whole configurations -/

/-- Applies the type of a configuration, which must be one of the draft's kind. -/
def configureType (type : ConfigType) : Change Unit := do
  let kind := (← get).kind
  if type.kind? ≠ some kind then refuse (.wrongType type (.action kind))
  else
    match type.tableType? with
    | some tableType => modify fun d => { d with tableType }
    | none => pure ()

/-- The draft with everything that a configuration sets besides type and name. -/
def withOptions (d : Draft) (config : ActionConfig) : Draft :=
  { d with
    schema := config.schema.or d.schema
    database := config.database.or d.database
    descriptor :=
      { description := config.description.or d.descriptor.description
        columns := match config.columns with
          | some columns => d.descriptor.columns.extend columns.entries
          | none => d.descriptor.columns }
    tags := d.tags ++ config.tags.getD []
    dependencies := d.dependencies ++ (config.dependencies.getD []).map DependencySpec.reference
    disabled := config.disabled.getD d.disabled
    isProtected := config.isProtected.getD d.isProtected
    hasOutput := config.hasOutput.getD d.hasOutput
    uniqueKey := config.uniqueKey.getD d.uniqueKey
    assertions := config.assertions.getD d.assertions
    bigquery := config.bigquery.or d.bigquery }

/-- Applies every key of a configuration: the type, the name, then all others. -/
def configure (config : ActionConfig) : Change Unit := do
  touch
  if config.dataset.isSome then refuse .dataset
  match config.type with
  | some type => configureType type
  | none => pure ()
  match config.name with
  | some name => if name.isEmpty then refuse .emptyName else modify fun d => { d with name }
  | none => pure ()
  modify fun d => d.withOptions config

/-! ## §3 Finishing -/

/-- What the draft has to say besides what all actions have in common. -/
def payload (d : Draft) : Except ConfigFault Payload :=
  match d.kind with
  | .table =>
    match d.query with
    | some query =>
      .ok (.table
        { type := d.tableType, query, incrementalQuery := d.incrementalQuery, preOps := d.preOps
          postOps := d.postOps, incrementalWhere := d.incrementalWhere
          isProtected := d.isProtected, uniqueKey := d.uniqueKey, assertions := d.assertions
          bigquery := d.bigquery })
    | none => .error (.noQuery .table)
  | .operation => .ok (.operation d.queries d.hasOutput)
  | .assertion =>
    match d.query with
    | some query => .ok (.assertion query)
    | none => .error (.noQuery .assertion)
  | .declaration => .ok .declaration
  | .notebook =>
    match d.notebookContents with
    | some contents => .ok (.notebook contents)
    | none => .error .noContents

/-- Finishes the draft. -/
def finish : Change Registration := do
  let d ← get
  if d.stage = .compiled then throw (.isSealed d.name)
  else
    match d.payload with
    | .error fault => refuse fault
    | .ok payload =>
      set { d with stage := .compiled }
      return {
        filePath := d.filePath, name := d.name, schema := d.schema, database := d.database
        dependencies := d.dependencies, descriptor := d.descriptor, tags := d.tags
        disabled := d.disabled, payload }

end Draft

end SqlWorkflow
