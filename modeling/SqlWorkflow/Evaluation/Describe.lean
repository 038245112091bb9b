import SqlWorkflow.Action.Draft
import SqlWorkflow.Evaluation.Argument
import SqlWorkflow.Target.Deferred

/-!
# Describing an action

A call of a binding reads or changes the draft of an action and denotes a value.  References and
the parts of the action's own name are not known yet when the file is evaluated; calls for them
denote markers, which are replaced when all actions are known.  A reference that is called for is
always a dependency as well.
-/

namespace SqlWorkflow.Evaluation

open Template

/-- What a call does to the draft of an action. -/
abbrev Act (α : Type) := StateT Draft (Except CallError) α

/-- A change of the draft. -/
def act {α : Type} (change : Draft.Change α) : Act α := fun d =>
  match Draft.apply change d with
  | (.ok a, d) => .ok (a, d)
  | (.error e, _) => .error (.action e)

/-- Several changes of the draft. -/
def actAll {α : Type} (change : α → Draft.Change Unit) : List α → Act Unit
  | [] => pure ()
  | a :: rest => do
    act (change a)
    actAll change rest

/-- The empty text, which calls denote that only change the draft. -/
def nothing : Value := .text ""

/-- Documents columns. -/
def describeColumns (columns : List (String × ColumnDoc)) : Act Unit :=
  actAll (fun (column, doc) => Draft.setColumn column doc) columns

/-- The documentation of a column: text, or a dictionary with nested columns. -/
def columnDocOf (v : Option Value) : Except CallError ColumnDoc :=
  match v with
  | none => .ok (.text "")
  | some v =>
    match v.kind with
    | .map => readValue "describe" ColumnDoc.decode v
    | _ => .ok (.text v.write)

/-- Documents one column, whose name the call denotes, or several at once. -/
def describeBy (args : List Value) : Act Value :=
  match args with
  | [] => throw .nothingToDescribe
  | first :: rest =>
    match first.kind with
    | .map => do
      let columns ← readValue "describe" (Decode.dict ColumnDoc.decode) first
      describeColumns columns.entries
      return nothing
    | _ => do
      let column ← textOf "describe()" (some first)
      let doc ← columnDocOf rest.head?
      act (Draft.setColumn column doc)
      return .text column

/-- The table type that the first argument names. -/
def tableTypeOf (args : List Value) : Except CallError TableType := do
  let name ← textOf "type()" args.head?
  match TableType.ofName? name with
  | some type => return type
  | none => throw (.unknownTableType name)

/-- A call of a binding that the action supports. -/
def describe (incremental : Bool) (b : Binding) (args : List Value) : Act Value :=
  match b with
  | .config => do
    let config ← readMerged "config" ActionConfig.decode args
    act (Draft.configure config)
    return nothing
  | .type => do
    let type ← tableTypeOf args
    act (Draft.setType type)
    return nothing
  | .ref => do
    let reference ← referenceOf args
    act (Draft.addDependency reference)
    return .text (Deferred.encode (.target reference))
  | .resolve => do
    let reference ← referenceOf args
    return .text (Deferred.encode (.target reference))
  | .ownTarget | .thisTarget => return .text (Deferred.encode .selfTarget)
  | .ownSchema => return .text (Deferred.encode .selfSchema)
  | .ownDatabase => return .text (Deferred.encode .selfDatabase)
  | .ownName => return .text (← get).name
  | .dependencies => do
    let names ← allTexts args
    actAll (fun name => Draft.addDependency (TargetRef.parse name)) names
    return nothing
  | .choose =>
    match args with
    | [] => return nothing
    | condition :: rest =>
      return ((if condition.isTrue then rest[0]? else rest[1]?).getD nothing)
  | .incremental => return .bool incremental
  | .incrementalWhere => do
    let clause ← textOf "where()" args.head?
    act (Draft.setWhere clause)
    return nothing
  | .preOps => do
    let statements ← textsOf (args.head?.getD .undefined)
    actAll Draft.addPreOp statements
    return nothing
  | .postOps => do
    let statements ← textsOf (args.head?.getD .undefined)
    actAll Draft.addPostOp statements
    return nothing
  | .descriptor | .describe => describeBy args
  | .hasOutput => do
    act (Draft.setHasOutput (flagOf args))
    return nothing
  | .tags => do
    let tags ← allTexts args
    act (Draft.addTags tags)
    return nothing
  | .disabled => do
    act (Draft.setDisabled (flagOf args))
    return nothing
  | .bigquery => do
    let options ← readMerged "bigquery" BigQueryOptions.decode args
    act (Draft.setBigquery options)
    return nothing
  -- Options for warehouses of other kinds are accepted and dropped.
  | .redshift | .snowflake | .sqlDataWarehouse => return nothing

theorem act_ok {α : Type} {change : Draft.Change α} {d e : Draft} {a : α}
    (h : act change d = .ok (a, e)) : Draft.apply change d = (.ok a, e) := by
  unfold act at h
  split at h
  case h_1 b f hb =>
    rw [hb]
    simp_all
  case h_2 => simp at h

end SqlWorkflow.Evaluation
