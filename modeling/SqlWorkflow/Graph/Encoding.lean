import SqlWorkflow.Graph.Basic

/-!
# Graphs as JSON

Members that have nothing to say are left out, so a member that is absent reads as its default.
The members that all actions have in common stand directly among the members of each action.
-/

namespace SqlWorkflow

/-! ## §1 Writing -/

/-- A list, left out if it is empty. -/
def listUnlessEmpty {α : Type} (encode : α → Json) (items : List α) : Option Json :=
  if items.isEmpty then none else some (.arr (items.map encode))

/-- A truth value, left out if it is false. -/
def flagIfSet (b : Bool) : Option Json := if b then some (.bool true) else none

/-- The members that all actions have in common. -/
def ActionHeader.members (h : ActionHeader) : List (String × Option Json) :=
  [ ("target", some h.target.toJson),
    ("canonicalTarget", some h.canonicalTarget.toJson),
    ("fileName", some (.str h.fileName)),
    ("dependencyTargets", listUnlessEmpty Target.toJson h.dependencyTargets),
    ("tags", listUnlessEmpty .str h.tags),
    ("disabled", flagIfSet h.disabled),
    ("actionDescriptor", h.descriptor.map ActionDescriptor.toJson) ]

/-- A table as JSON. -/
def Table.toJson (t : Table) : Json :=
  Json.present (t.header.members ++
    [ ("type", some (.str t.type.name)),
      ("query", some (.str t.query)),
      ("incrementalQuery", t.incrementalQuery.map .str),
      ("preOps", listUnlessEmpty .str t.preOps),
      ("postOps", listUnlessEmpty .str t.postOps),
      ("where", t.incrementalWhere.map .str),
      ("protected", flagIfSet t.isProtected),
      ("uniqueKey", listUnlessEmpty .str t.uniqueKey),
      ("bigquery", t.bigquery.map BigQueryOptions.toJson) ])

/-- An operation as JSON. -/
def Operation.toJson (o : Operation) : Json :=
  Json.present (o.header.members ++
    [("queries", some (Json.strings o.queries)), ("hasOutput", flagIfSet o.hasOutput)])

/-- An assertion as JSON. -/
def Assertion.toJson (a : Assertion) : Json :=
  Json.present (a.header.members ++
    [("query", some (.str a.query)), ("parentAction", a.parentAction.map Target.toJson)])

/-- A declaration as JSON. -/
def Declaration.toJson (d : Declaration) : Json := Json.present d.header.members

/-- A notebook as JSON. -/
def Notebook.toJson (n : Notebook) : Json :=
  Json.present (n.header.members ++ [("notebookContents", some (.str n.contents))])

/-- A unit test as JSON. -/
def CompiledTest.toJson (t : CompiledTest) : Json :=
  .obj
    [ ("name", .str t.name), ("fileName", .str t.fileName), ("testQuery", .str t.testQuery),
      ("expectedOutputQuery", .str t.expectedOutputQuery) ]

/-- A message as JSON. -/
def FileMessage.toJson (m : FileMessage) : Json :=
  .obj [("fileName", .str m.fileName), ("message", .str m.message)]

/-- A problem as JSON. -/
def ValidationError.toJson (e : ValidationError) : Json :=
  Json.present
    [ ("fileName", some (.str e.fileName)), ("message", some (.str e.message)),
      ("actionTarget", e.actionTarget.map Target.toJson) ]

/-- All problems as JSON. -/
def GraphErrors.toJson (e : GraphErrors) : Json :=
  Json.present
    [ ("compilationErrors", some (.arr (e.compilationErrors.map FileMessage.toJson))),
      ("validationErrors", some (.arr (e.validationErrors.map ValidationError.toJson))),
      ("warnings", listUnlessEmpty FileMessage.toJson e.warnings) ]

namespace CompiledGraph

/-- A graph as JSON. -/
def toJson (g : CompiledGraph) : Json :=
  .obj
    [ ("dataformCoreVersion", .str g.coreVersion),
      ("projectConfig", g.projectConfig.toJson),
      ("tables", .arr (g.tables.map Table.toJson)),
      ("operations", .arr (g.operations.map Operation.toJson)),
      ("assertions", .arr (g.assertions.map Assertion.toJson)),
      ("declarations", .arr (g.declarations.map Declaration.toJson)),
      ("notebooks", .arr (g.notebooks.map Notebook.toJson)),
      ("tests", .arr (g.tests.map CompiledTest.toJson)),
      ("graphErrors", g.graphErrors.toJson) ]

/-- The compact JSON text. -/
def encode (g : CompiledGraph) : String := g.toJson.compact

/-- The JSON text laid out on lines. -/
def encodePretty (g : CompiledGraph) : String := g.toJson.pretty

/-- The digest of the compact JSON text. -/
def fingerprint (g : CompiledGraph) : String := Sha256.ofText g.encode

end CompiledGraph

/-! ## §2 Reading -/

/-- The fields that all actions have in common. -/
def ActionHeader.shape : Decode.Shape ActionHeader where
  title := "struct ActionHeader"
  fields :=
    [ (Decode.field "target" Target.decode fun v h => { h with target := v }).mandatory,
      (Decode.field "canonicalTarget" Target.decode
        fun v h => { h with canonicalTarget := v }).mandatory,
      (Decode.field "fileName" Decode.string fun v h => { h with fileName := v }).mandatory,
      Decode.field "dependencyTargets" (Decode.list Target.decode)
        fun v h => { h with dependencyTargets := v },
      Decode.field "tags" (Decode.list Decode.string) fun v h => { h with tags := v },
      Decode.field "disabled" Decode.bool fun v h => { h with disabled := v },
      Decode.field "actionDescriptor" (Decode.option ActionDescriptor.decode)
        fun v h => { h with descriptor := v } ]

/-- Reads an action: first its own fields, then, among all other entries, the fields that all
actions have in common. -/
def decodeAction {α : Type} (shape : Decode.Shape α) (start : α) (put : ActionHeader → α → α) :
    Decoder α := fun source doc =>
  match doc.untagged with
  | .map entries => do
    let own ← { shape with keeps := true }.ofEntries source start entries
    let common ← ActionHeader.shape.ofEntries .aside default own.others
    return put common.record own.record
  | .tooDeep (.map _) => .error .fault
  | _ => .error (Decode.mismatch source doc shape.title)

/-- Reads a table. -/
def Table.decode : Decoder Table :=
  let text := Decode.option Decode.string
  let texts := Decode.list Decode.string
  decodeAction
    { title := "struct Table"
      fields :=
        [ (Decode.field "type" (Decode.oneOf TableType.byName)
            fun v t => { t with type := v }).mandatory,
          (Decode.field "query" Decode.string fun v t => { t with query := v }).mandatory,
          Decode.field "incrementalQuery" text fun v t => { t with incrementalQuery := v },
          Decode.field "preOps" texts fun v t => { t with preOps := v },
          Decode.field "postOps" texts fun v t => { t with postOps := v },
          Decode.field "where" text fun v t => { t with incrementalWhere := v },
          Decode.field "protected" Decode.bool fun v t => { t with isProtected := v },
          Decode.field "uniqueKey" texts fun v t => { t with uniqueKey := v },
          Decode.field "bigquery" (Decode.option BigQueryOptions.decode)
            fun v t => { t with bigquery := v } ] }
    { header := default, type := .table, query := "" } fun h t => { t with header := h }

/-- Reads an operation. -/
def Operation.decode : Decoder Operation :=
  decodeAction
    { title := "struct Operation"
      fields :=
        [ (Decode.field "queries" (Decode.list Decode.string)
            fun v o => { o with queries := v }).mandatory,
          Decode.field "hasOutput" Decode.bool fun v o => { o with hasOutput := v } ] }
    { header := default, queries := [] } fun h o => { o with header := h }

/-- Reads an assertion. -/
def Assertion.decode : Decoder Assertion :=
  decodeAction
    { title := "struct Assertion"
      fields :=
        [ (Decode.field "query" Decode.string fun v a => { a with query := v }).mandatory,
          Decode.field "parentAction" (Decode.option Target.decode)
            fun v a => { a with parentAction := v } ] }
    { header := default, query := "" } fun h a => { a with header := h }

/-- Reads a declaration. -/
def Declaration.decode : Decoder Declaration :=
  decodeAction { title := "struct Declaration", fields := [] } { header := default }
    fun h d => { d with header := h }

/-- Reads a notebook. -/
def Notebook.decode : Decoder Notebook :=
  decodeAction
    { title := "struct Notebook"
      fields :=
        [(Decode.field "notebookContents" Decode.string
          fun v n => { n with contents := v }).mandatory] }
    { header := default, contents := "" } fun h n => { n with header := h }

/-- Reads a unit test. -/
def CompiledTest.decode : Decoder CompiledTest :=
  Decode.Shape.decode
    { title := "struct UnitTest"
      fields :=
        [ (Decode.field "name" Decode.string fun v t => { t with name := v }).mandatory,
          (Decode.field "fileName" Decode.string fun v t => { t with fileName := v }).mandatory,
          Decode.field "testQuery" Decode.string fun v t => { t with testQuery := v },
          Decode.field "expectedOutputQuery" Decode.string
            fun v t => { t with expectedOutputQuery := v } ] }
    { name := "", fileName := "" }

/-- Reads a message of the given kind. -/
def FileMessage.decode (title : String) : Decoder FileMessage :=
  Decode.Shape.decode
    { title
      fields :=
        [ (Decode.field "fileName" Decode.string fun v m => { m with fileName := v }).mandatory,
          (Decode.field "message" Decode.string fun v m => { m with message := v }).mandatory ] }
    { fileName := "", message := "" }

/-- Reads a problem. -/
def ValidationError.decode : Decoder ValidationError :=
  Decode.Shape.decode
    { title := "struct ValidationError"
      fields :=
        [ (Decode.field "fileName" Decode.string fun v e => { e with fileName := v }).mandatory,
          (Decode.field "message" Decode.string fun v e => { e with message := v }).mandatory,
          Decode.field "actionTarget" (Decode.option Target.decode)
            fun v e => { e with actionTarget := v } ] }
    { fileName := "", message := "" }

/-- Reads all problems. -/
def GraphErrors.decode : Decoder GraphErrors :=
  Decode.Shape.decode
    { title := "struct GraphErrors"
      fields :=
        [ Decode.field "compilationErrors"
            (Decode.list (FileMessage.decode "struct CompilationError"))
            fun v e => { e with compilationErrors := v },
          Decode.field "validationErrors" (Decode.list ValidationError.decode)
            fun v e => { e with validationErrors := v },
          Decode.field "warnings" (Decode.list (FileMessage.decode "struct GraphWarning"))
            fun v e => { e with warnings := v } ] }
    {}

namespace CompiledGraph

/-- The fields of a graph in a document. -/
def shape : Decode.Shape CompiledGraph where
  title := "struct CompiledGraph"
  fields :=
    [ (Decode.field "dataformCoreVersion" Decode.string
        fun v g => { g with coreVersion := v }).mandatory,
      (Decode.field "projectConfig" ProjectConfig.decode
        fun v g => { g with projectConfig := v }).mandatory,
      Decode.field "tables" (Decode.list Table.decode) fun v g => { g with tables := v },
      Decode.field "operations" (Decode.list Operation.decode)
        fun v g => { g with operations := v },
      Decode.field "assertions" (Decode.list Assertion.decode)
        fun v g => { g with assertions := v },
      Decode.field "declarations" (Decode.list Declaration.decode)
        fun v g => { g with declarations := v },
      Decode.field "notebooks" (Decode.list Notebook.decode) fun v g => { g with notebooks := v },
      Decode.field "tests" (Decode.list CompiledTest.decode) fun v g => { g with tests := v },
      (Decode.field "graphErrors" GraphErrors.decode
        fun v g => { g with graphErrors := v }).mandatory ]

/-- Reads a graph. -/
def decode : Decoder CompiledGraph := shape.decode { coreVersion := "", projectConfig := {} }

/-- The graph that a JSON text holds. -/
def ofText (text : String) : Except DecodeError CompiledGraph :=
  Decode.whole decode .jsonText (Json.read text)

end CompiledGraph

end SqlWorkflow
