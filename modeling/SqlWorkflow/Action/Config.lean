import SqlWorkflow.Target.Reference
import SqlWorkflow.Yaml.Reader
import SqlWorkflow.Text.Blank

/-!
# What authors say about an action

Besides its SQL an action has a configuration: what kind of thing it is, its name, its
documentation, and options.  A configuration is written as a block at the top of a definition file
or given by a script.
-/

namespace SqlWorkflow

/-! ## §1 Kinds -/

/-- The kinds of actions. -/
inductive ActionKind where
  | table
  | operation
  | assertion
  | declaration
  | notebook
  deriving DecidableEq, Repr, Inhabited

/-- The name of a kind. -/
def ActionKind.name : ActionKind → String
  | .table => "table"
  | .operation => "operation"
  | .assertion => "assertion"
  | .declaration => "declaration"
  | .notebook => "notebook"

/-- How the rows of a table come about. -/
inductive TableType where
  | table
  | view
  /-- New rows are added to those that are there. -/
  | incremental
  /-- The query stands in the place of every reference to the table. -/
  | inline
  deriving DecidableEq, Repr, Inhabited

namespace TableType

/-- All table types by name. -/
def byName : List (String × TableType) :=
  [("table", .table), ("view", .view), ("incremental", .incremental), ("inline", .inline)]

/-- The name of a table type. -/
def name : TableType → String
  | .table => "table"
  | .view => "view"
  | .incremental => "incremental"
  | .inline => "inline"

/-- The table type with a name. -/
def ofName? (name : String) : Option TableType := lookupEntry name byName

end TableType

/-- What a configuration says an action is: a dataset of some type or another kind of action. -/
inductive ConfigType where
  | dataset (type : TableType)
  | operations
  | assertion
  | declaration
  /-- A unit test, which is no action. -/
  | test
  deriving DecidableEq, Repr, Inhabited

namespace ConfigType

/-- All types of a configuration by name. -/
def byName : List (String × ConfigType) :=
  TableType.byName.map (fun (name, type) => (name, .dataset type)) ++
    [("operations", .operations), ("assertion", .assertion), ("declaration", .declaration),
      ("test", .test)]

/-- The name of a type. -/
def name : ConfigType → String
  | .dataset type => type.name
  | .operations => "operations"
  | .assertion => "assertion"
  | .declaration => "declaration"
  | .test => "test"

/-- The kind of action that the type declares; a test is none. -/
def kind? : ConfigType → Option ActionKind
  | .dataset _ => some .table
  | .operations => some .operation
  | .assertion => some .assertion
  | .declaration => some .declaration
  | .test => none

/-- The table type, for a dataset. -/
def tableType? : ConfigType → Option TableType
  | .dataset type => some type
  | _ => none

/-- Does the type declare a dataset? -/
def isDataset (type : ConfigType) : Bool := type.tableType?.isSome

end ConfigType

/-! ## §2 Documentation -/

/-- A description, or a record with nested columns in any order. -/
inductive ColumnTree where
  | text (description : String)
  | record (description : Option String) (columns : List (String × ColumnTree))
  deriving Repr, Inhabited

namespace ColumnTree

mutual

/-- Do the nested columns stand in the order of their names? -/
def Ordered : ColumnTree → Prop
  | .text _ => True
  | .record _ columns => SortedEntries columns ∧ AllOrdered columns

def AllOrdered : List (String × ColumnTree) → Prop
  | [] => True
  | (_, tree) :: rest => tree.Ordered ∧ AllOrdered rest

end

mutual

/-- The tree as JSON. -/
def toJson : ColumnTree → Json
  | .text description => .str description
  | .record description columns =>
    Json.present
      [ ("description", description.map .str),
        ("columns", if columns.isEmpty then none else some (.obj (membersJson columns))) ]

def membersJson : List (String × ColumnTree) → List (String × Json)
  | [] => []
  | (name, tree) :: rest => (name, tree.toJson) :: membersJson rest

end

end ColumnTree

/-- The documentation of a column: a description, or a record with documentation of nested
columns.  The nested columns stand in the order of their names. -/
structure ColumnDoc where
  tree : ColumnTree
  ordered : tree.Ordered

namespace ColumnDoc

instance : Repr ColumnDoc := ⟨fun doc => reprPrec doc.tree⟩

/-- A description. -/
def text (description : String) : ColumnDoc := ⟨.text description, trivial⟩

instance : Inhabited ColumnDoc := ⟨text ""⟩

/-- The trees of documented columns. -/
def trees (columns : List (String × ColumnDoc)) : List (String × ColumnTree) :=
  columns.map fun (name, doc) => (name, doc.tree)

theorem allOrdered_trees (columns : List (String × ColumnDoc)) :
    ColumnTree.AllOrdered (trees columns) := by
  induction columns with
  | nil => trivial
  | cons column rest ih => exact ⟨column.2.ordered, ih⟩

/-- A record with documentation of nested columns. -/
def record (description : Option String) (columns : Dict ColumnDoc) : ColumnDoc where
  tree := .record description (trees columns.entries)
  ordered := ⟨List.pairwise_map.2 columns.sorted, allOrdered_trees columns.entries⟩

/-- The documentation as JSON. -/
def toJson (doc : ColumnDoc) : Json := doc.tree.toJson

/-- The entries of a column's record. -/
structure Entries where
  description : Option (Option String) := none
  columns : Option (List (String × ColumnDoc)) := none

mutual

/-- The documentation that a document holds. -/
def ofDoc? : Doc → Option ColumnDoc
  | .text s => some (.text s)
  | .map entries => do
    let found ← entries? entries
    return .record (found.description.getD none) (Dict.ofList (found.columns.getD []))
  | _ => none

/-- The entries of a column's record; unknown ones do not matter, repeated ones are refused. -/
def entries? : List (Doc × Doc) → Option Entries
  | [] => some {}
  | (.text "description", value) :: rest => do
    let found ← entries? rest
    if found.description.isSome then none
    else
      match value with
      | .null => some { found with description := some none }
      | .text s => some { found with description := some (some s) }
      | _ => none
  | (.text "columns", .map members) :: rest => do
    let found ← entries? rest
    let columns ← members? members
    if found.columns.isSome then none else some { found with columns := some columns }
  | (.text name, _) :: rest => if name = "columns" then none else entries? rest
  | _ :: _ => none

/-- The nested columns of a record. -/
def members? : List (Doc × Doc) → Option (List (String × ColumnDoc))
  | [] => some []
  | (.text name, value) :: rest => do
    let first ← ofDoc? value
    let others ← members? rest
    return (name, first) :: others
  | _ :: _ => none

end

/-- Reads the documentation of a column. -/
def decode : Decoder ColumnDoc :=
  Decode.firstOf "ColumnDoc"
    [fun _ doc => match ofDoc? doc with
      | some column => .ok column
      | none => .error .fault]

end ColumnDoc

/-- The documentation of an action. -/
structure ActionDescriptor where
  description : Option String := none
  columns : Dict ColumnDoc := ∅
  deriving Repr, Inhabited

namespace ActionDescriptor

/-- Is nothing documented? -/
def isEmpty (d : ActionDescriptor) : Bool := d.description.isNone && d.columns.isEmpty

/-- Documentation of columns, left out if there is none. -/
def columnsJson (columns : Dict ColumnDoc) : Option Json :=
  if columns.isEmpty then none else some (Json.ofDict ColumnDoc.toJson columns)

/-- The documentation as JSON. -/
def toJson (d : ActionDescriptor) : Json :=
  Json.present [("description", d.description.map .str), ("columns", columnsJson d.columns)]

/-- The fields of documentation in a document. -/
def shape : Decode.Shape ActionDescriptor where
  title := "struct ActionDescriptor"
  fields :=
    [ Decode.field "description" (Decode.option Decode.string)
        fun v d => { d with description := v },
      Decode.field "columns" (Decode.dict ColumnDoc.decode) fun v d => { d with columns := v } ]

/-- Reads documentation. -/
def decode : Decoder ActionDescriptor := shape.decode {}

end ActionDescriptor

/-! ## §3 Options -/

/-- Texts, left out if there are none. -/
def textsUnlessNone (texts : List String) : Option Json :=
  if texts.isEmpty then none else some (Json.strings texts)

/-- Checks of a table's rows. -/
structure TableAssertions where
  uniqueKey : List String := []
  uniqueKeys : List (List String) := []
  nonNull : List String := []
  rowConditions : List String := []
  deriving DecidableEq, Repr, Inhabited

namespace TableAssertions

/-- Is nothing checked? -/
def isEmpty (a : TableAssertions) : Bool :=
  a.uniqueKey.isEmpty && a.uniqueKeys.isEmpty && a.nonNull.isEmpty && a.rowConditions.isEmpty

/-- The checks as JSON. -/
def toJson (a : TableAssertions) : Json :=
  Json.present
    [ ("uniqueKey", textsUnlessNone a.uniqueKey),
      ("uniqueKeys",
        if a.uniqueKeys.isEmpty then none else some (.arr (a.uniqueKeys.map Json.strings))),
      ("nonNull", textsUnlessNone a.nonNull),
      ("rowConditions", textsUnlessNone a.rowConditions) ]

/-- The fields of checks in a document. -/
def shape : Decode.Shape TableAssertions where
  title := "struct TableAssertions"
  closed := true
  fields :=
    let texts := Decode.list Decode.string
    [ Decode.field "uniqueKey" texts fun v a => { a with uniqueKey := v },
      Decode.field "uniqueKeys" (Decode.list texts) fun v a => { a with uniqueKeys := v },
      Decode.field "nonNull" texts fun v a => { a with nonNull := v },
      Decode.field "rowConditions" texts fun v a => { a with rowConditions := v } ]

/-- Reads checks. -/
def decode : Decoder TableAssertions := shape.decode {}

end TableAssertions

/-- Options of a dataset that only BigQuery knows. -/
structure BigQueryOptions where
  partitionBy : Option String := none
  clusterBy : List String := []
  updatePartitionFilter : Option String := none
  labels : Dict String := ∅
  partitionExpirationDays : Option UInt32 := none
  requirePartitionFilter : Option Bool := none
  additionalOptions : Dict String := ∅
  deriving DecidableEq, Repr, Inhabited

namespace BigQueryOptions

/-- A dictionary of texts, left out if it is empty. -/
def textsUnlessEmpty (d : Dict String) : Option Json :=
  if d.isEmpty then none else some (Json.ofDict .str d)

/-- The options as JSON. -/
def toJson (o : BigQueryOptions) : Json :=
  Json.present
    [ ("partitionBy", o.partitionBy.map .str),
      ("clusterBy", textsUnlessNone o.clusterBy),
      ("updatePartitionFilter", o.updatePartitionFilter.map .str),
      ("labels", textsUnlessEmpty o.labels),
      ("partitionExpirationDays", o.partitionExpirationDays.map fun n => .nat n.toNat),
      ("requirePartitionFilter", o.requirePartitionFilter.map .bool),
      ("additionalOptions", textsUnlessEmpty o.additionalOptions) ]

/-- The fields of options in a document. -/
def shape : Decode.Shape BigQueryOptions where
  title := "struct BigQueryOptions"
  closed := true
  fields :=
    let text := Decode.option Decode.string
    let texts := Decode.dict Decode.string
    [ Decode.field "partitionBy" text fun v o => { o with partitionBy := v },
      Decode.field "clusterBy" (Decode.list Decode.string) fun v o => { o with clusterBy := v },
      Decode.field "updatePartitionFilter" text fun v o => { o with updatePartitionFilter := v },
      Decode.field "labels" texts fun v o => { o with labels := v },
      Decode.field "partitionExpirationDays" (Decode.option (Decode.natural 32))
        fun v o => { o with partitionExpirationDays := v.map UInt32.ofNat },
      Decode.field "requirePartitionFilter" (Decode.option Decode.bool)
        fun v o => { o with requirePartitionFilter := v },
      Decode.field "additionalOptions" texts fun v o => { o with additionalOptions := v } ]

/-- Reads options. -/
def decode : Decoder BigQueryOptions := shape.decode {}

end BigQueryOptions

/-- A dependency as authors write it. -/
inductive DependencySpec where
  | name (text : String)
  | target (reference : TargetRef)
  deriving DecidableEq, Repr, Inhabited

namespace DependencySpec

/-- The reference that is meant. -/
def reference : DependencySpec → TargetRef
  | .name text => TargetRef.parse text
  | .target reference => reference

/-- The dependency as JSON. -/
def toJson : DependencySpec → Json
  | .name text => .str text
  | .target reference => reference.toJson

/-- Reads a dependency. -/
def decode : Decoder DependencySpec :=
  Decode.firstOf "DependencySpec"
    [ fun source doc => (Decode.string source doc).map .name,
      fun source doc => (TargetRef.decode source doc).map .target ]

end DependencySpec

/-! ## §4 The configuration -/

/-- The configuration of an action. -/
structure ActionConfig where
  type : Option ConfigType := none
  name : Option String := none
  schema : Option String := none
  database : Option String := none
  description : Option String := none
  columns : Option (Dict ColumnDoc) := none
  tags : Option (List String) := none
  dependencies : Option (List DependencySpec) := none
  disabled : Option Bool := none
  isProtected : Option Bool := none
  hasOutput : Option Bool := none
  uniqueKey : Option (List String) := none
  assertions : Option TableAssertions := none
  bigquery : Option BigQueryOptions := none
  /-- The dataset that a unit test is about. -/
  dataset : Option DependencySpec := none
  deriving Repr, Inhabited

namespace ActionConfig

/-- The keys that are set although they mean nothing to a unit test. -/
def keysUnusedByTests (c : ActionConfig) : List String :=
  [ ("schema", c.schema.isSome), ("database", c.database.isSome),
    ("description", c.description.isSome), ("columns", c.columns.isSome),
    ("disabled", c.disabled.isSome), ("protected", c.isProtected.isSome),
    ("hasOutput", c.hasOutput.isSome), ("uniqueKey", c.uniqueKey.isSome),
    ("assertions", c.assertions.isSome), ("bigquery", c.bigquery.isSome) ].filterMap
    fun (key, isSet) => if isSet then some key else none

/-- The configuration as JSON. -/
def toJson (c : ActionConfig) : Json :=
  Json.present
    [ ("type", c.type.map fun t => .str t.name),
      ("name", c.name.map .str),
      ("schema", c.schema.map .str),
      ("database", c.database.map .str),
      ("description", c.description.map .str),
      ("columns", c.columns.map (Json.ofDict ColumnDoc.toJson)),
      ("tags", c.tags.map Json.strings),
      ("dependencies", c.dependencies.map fun ds => .arr (ds.map DependencySpec.toJson)),
      ("disabled", c.disabled.map .bool),
      ("protected", c.isProtected.map .bool),
      ("hasOutput", c.hasOutput.map .bool),
      ("uniqueKey", c.uniqueKey.map Json.strings),
      ("assertions", c.assertions.map TableAssertions.toJson),
      ("bigquery", c.bigquery.map BigQueryOptions.toJson),
      ("dataset", c.dataset.map DependencySpec.toJson) ]

/-- The fields of a configuration in a document. -/
def shape : Decode.Shape ActionConfig where
  title := "struct ActionConfig"
  closed := true
  fields :=
    let text := Decode.option Decode.string
    let texts := Decode.option (Decode.list Decode.string)
    let flag := Decode.option Decode.bool
    [ Decode.field "type" (Decode.option (Decode.oneOf ConfigType.byName))
        fun v c => { c with type := v },
      Decode.field "name" text fun v c => { c with name := v },
      Decode.field "schema" text fun v c => { c with schema := v },
      Decode.field "database" text fun v c => { c with database := v },
      Decode.field "description" text fun v c => { c with description := v },
      Decode.field "columns" (Decode.option (Decode.dict ColumnDoc.decode))
        fun v c => { c with columns := v },
      Decode.field "tags" texts fun v c => { c with tags := v },
      Decode.field "dependencies" (Decode.option (Decode.list DependencySpec.decode))
        fun v c => { c with dependencies := v },
      Decode.field "disabled" flag fun v c => { c with disabled := v },
      Decode.field "protected" flag fun v c => { c with isProtected := v },
      Decode.field "hasOutput" flag fun v c => { c with hasOutput := v },
      Decode.field "uniqueKey" texts fun v c => { c with uniqueKey := v },
      Decode.field "assertions" (Decode.option TableAssertions.decode)
        fun v c => { c with assertions := v },
      Decode.field "bigquery" (Decode.option BigQueryOptions.decode)
        fun v c => { c with bigquery := v },
      Decode.field "dataset" (Decode.option DependencySpec.decode)
        fun v c => { c with dataset := v } ]

/-- Reads a configuration. -/
def decode : Decoder ActionConfig := shape.decode {}

/-- The configuration that a JSON value holds. -/
def ofJson (value : Json) : Except DecodeError ActionConfig := decode .jsonValue value.toDoc

/-- The text of a block without the blanks at its end and without one comma before them. -/
def blockText (body : String) : String :=
  let text := Text.trimEnd Text.isBlank body.toList
  String.ofList (if text.getLast? = some ',' then text.dropLast else text)

/-- The configuration that the body of a block holds: the entries of a mapping in braces. -/
def ofBlock (body : String) : Except DecodeError ActionConfig :=
  Decode.whole decode .yaml (Yaml.read ("\x7b" ++ blockText body ++ "\x7d"))

end ActionConfig

end SqlWorkflow
