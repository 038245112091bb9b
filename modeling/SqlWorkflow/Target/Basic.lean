import SqlWorkflow.Json.Printer
import SqlWorkflow.Json.Reader
import SqlWorkflow.Document.Decode

/-!
# Targets

A target names an object of the warehouse: an optional database, a schema, and a name.
-/

namespace SqlWorkflow

/-- The name of a warehouse object. -/
structure Target where
  database : Option String
  schema : String
  name : String
  deriving DecidableEq, Repr, Inhabited

namespace Target

/-- Targets are ordered by database, an absent one first, then by schema, then by name. -/
def order (a b : Target) : Ordering :=
  (compare a.database b.database).then ((compare a.schema b.schema).then (compare a.name b.name))

/-- Does `a` come before `b`, or are they the same? -/
def le (a b : Target) : Bool := (a.order b).isLE

/-- A text that differs for different targets: the JSON array of the components. -/
def key (t : Target) : String :=
  Json.compact (.arr [(t.database.map Json.str).getD .null, .str t.schema, .str t.name])

/-- The components that are present, separated by dots. -/
def readable (t : Target) : String :=
  match t.database with
  | some database => database ++ "." ++ t.schema ++ "." ++ t.name
  | none => t.schema ++ "." ++ t.name

/-- The target as SQL text names it. -/
def quoted (t : Target) : String := "`" ++ t.readable ++ "`"

/-- The parts of a target that must not hold a dot. -/
inductive Component where
  | name
  | schema
  | database
  deriving DecidableEq, Repr

/-- The wording of a component in messages. -/
def Component.plural : Component → String
  | .name => "names"
  | .schema => "schemas"
  | .database => "databases"

/-- A dot in a component. -/
structure ComponentError where
  component : Component
  value : String
  deriving DecidableEq, Repr

/-- The text of the error. -/
def ComponentError.message (e : ComponentError) : String :=
  "Action target " ++ e.component.plural ++ " cannot include '.': \"" ++ e.value ++ "\""

/-- Does the text hold a dot? -/
def hasDot (s : String) : Bool := s.toList.contains '.'

/-- The components that hold a dot: name, schema, database. -/
def componentErrors (t : Target) : List ComponentError :=
  (if hasDot t.name then [⟨.name, t.name⟩] else []) ++
  (if hasDot t.schema then [⟨.schema, t.schema⟩] else []) ++
  match t.database with
  | some database => if hasDot database then [⟨.database, database⟩] else []
  | none => []

/-- The target as JSON. -/
def toJson (t : Target) : Json :=
  Json.present
    [("database", t.database.map .str), ("schema", some (.str t.schema)),
      ("name", some (.str t.name))]

/-- The fields of a target in a document. -/
def shape : Decode.Shape Target where
  title := "struct Target"
  fields :=
    [ Decode.field "database" (Decode.option Decode.string) fun v t => { t with database := v },
      (Decode.field "schema" Decode.string fun v t => { t with schema := v }).mandatory,
      (Decode.field "name" Decode.string fun v t => { t with name := v }).mandatory ]

/-- Reads a target. -/
def decode : Decoder Target := shape.decode ⟨none, "", ""⟩

end Target

end SqlWorkflow
