import SqlWorkflow.Target.Basic

/-!
# References

A reference names a target, possibly without its database or its schema.  A part that is absent
fits every target.
-/

namespace SqlWorkflow

/-- A possibly partial name of a target. -/
structure TargetRef where
  database : Option String := none
  schema : Option String := none
  name : String
  deriving DecidableEq, Repr, Inhabited

/-- Why a list of parts is no reference. -/
inductive ReferenceError where
  | partCount (n : Nat)
  | emptyName
  deriving DecidableEq, Repr

/-- The text of the error. -/
def ReferenceError.message : ReferenceError → String
  | .partCount n => "[E011] Invalid reference: expected 1 to 3 name parts, got " ++ toString n
  | .emptyName => "[E009] Empty name in reference"

namespace TargetRef

/-- The reference by name alone. -/
def named (name : String) : TargetRef := { name }

/-- The reference that one to three parts spell; the name is the last one and not empty. -/
def ofParts (parts : List String) : Except ReferenceError TargetRef :=
  let nonEmpty (reference : TargetRef) : Except ReferenceError TargetRef :=
    if reference.name.isEmpty then .error .emptyName else .ok reference
  match parts with
  | [name] => nonEmpty { name }
  | [schema, name] => nonEmpty { schema, name }
  | [database, schema, name] => nonEmpty { database, schema, name }
  | _ => .error (.partCount parts.length)

/-- The reference that a dotted text spells; a text that spells none is a name as a whole. -/
def parse (text : String) : TargetRef :=
  match ofParts (Text.split '.' text) with
  | .ok reference => reference
  | .error _ => named text

/-- Does the reference fit the target? -/
def Fits (r : TargetRef) (t : Target) : Prop :=
  r.name = t.name ∧ (∀ schema ∈ r.schema, schema = t.schema) ∧
    (∀ database ∈ r.database, t.database = some database)

instance (r : TargetRef) (t : Target) : Decidable (r.Fits t) :=
  inferInstanceAs (Decidable (_ ∧ _ ∧ _))

/-- The full reference to a target. -/
def ofTarget (t : Target) : TargetRef :=
  { database := t.database, schema := some t.schema, name := t.name }

/-- The parts that are present, separated by dots. -/
def readable (r : TargetRef) : String :=
  Text.join "." (r.database.toList ++ r.schema.toList ++ [r.name])

/-- The reference as JSON. -/
def toJson (r : TargetRef) : Json :=
  Json.present
    [("database", r.database.map .str), ("schema", r.schema.map .str), ("name", some (.str r.name))]

/-- The fields of a reference in a document. -/
def shape : Decode.Shape TargetRef where
  title := "struct TargetRef"
  fields :=
    [ Decode.field "database" (Decode.option Decode.string) fun v r => { r with database := v },
      Decode.field "schema" (Decode.option Decode.string) fun v r => { r with schema := v },
      (Decode.field "name" Decode.string fun v r => { r with name := v }).mandatory ]

/-- Reads a reference. -/
def decode : Decoder TargetRef := shape.decode { name := "" }

end TargetRef

end SqlWorkflow
