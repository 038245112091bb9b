import SqlWorkflow.Action.Config

/-!
# Bindings

A definition file of the sectioned or plain dialect finds functions bound to fixed names, by which
it describes its action.  Every name is bound in every such file, but each kind of action supports
only some of them.  What happens when a file uses another one is a matter of policy.
-/

namespace SqlWorkflow

/-- A function by which a file describes its action. -/
inductive Binding where
  | config
  | type
  | ref
  | resolve
  | ownTarget
  | thisTarget
  | ownName
  | dependencies
  | ownDatabase
  | ownSchema
  | choose
  | incremental
  | incrementalWhere
  | preOps
  | postOps
  | descriptor
  | describe
  | hasOutput
  | tags
  | disabled
  | bigquery
  | redshift
  | snowflake
  | sqlDataWarehouse
  deriving DecidableEq, Repr, Inhabited

namespace Binding

/-- The name to which the function is bound. -/
def name : Binding → String
  | .config => "config"
  | .type => "type"
  | .ref => "ref"
  | .resolve => "resolve"
  | .ownTarget => "self"
  | .thisTarget => "this"
  | .ownName => "name"
  | .dependencies => "dependencies"
  | .ownDatabase => "database"
  | .ownSchema => "schema"
  | .choose => "when"
  | .incremental => "incremental"
  | .incrementalWhere => "where"
  | .preOps => "preOps"
  | .postOps => "postOps"
  | .descriptor => "descriptor"
  | .describe => "describe"
  | .hasOutput => "hasOutput"
  | .tags => "tags"
  | .disabled => "disabled"
  | .bigquery => "bigquery"
  | .redshift => "redshift"
  | .snowflake => "snowflake"
  | .sqlDataWarehouse => "sqldatawarehouse"

/-- All bindings. -/
def all : List Binding :=
  [ .config, .type, .ref, .resolve, .ownTarget, .thisTarget, .ownName, .dependencies, .ownDatabase,
    .ownSchema, .choose, .incremental, .incrementalWhere, .preOps, .postOps, .descriptor,
    .describe, .hasOutput, .tags, .disabled, .bigquery, .redshift, .snowflake, .sqlDataWarehouse ]

/-- The binding of a name. -/
def ofName? (name : String) : Option Binding := all.find? fun b => b.name == name

theorem ofName?_name (b : Binding) : ofName? b.name = some b := by cases b <;> decide +kernel

end Binding

/-! ## §1 Support -/

namespace ActionKind

/-- The bindings that every action supports that has a query. -/
def queryBindings : List Binding :=
  [ .ref, .resolve, .ownTarget, .thisTarget, .ownName, .ownDatabase, .ownSchema, .dependencies,
    .choose, .tags ]

/-- The bindings that a kind of action supports. -/
def bindings : ActionKind → List Binding
  | .table =>
    [ .config, .type, .ref, .resolve, .ownTarget, .thisTarget, .ownName, .dependencies,
      .ownDatabase, .ownSchema, .choose, .incremental, .incrementalWhere, .preOps, .postOps,
      .descriptor, .describe, .tags, .disabled, .bigquery ]
  | .assertion | .notebook => queryBindings
  | .operation => queryBindings ++ [.hasOutput]
  | .declaration => [.ownTarget, .thisTarget, .ownName, .ownDatabase, .ownSchema]

/-- Does a kind of action support a binding? -/
def supports (kind : ActionKind) (b : Binding) : Bool := kind.bindings.contains b

/-- The bindings that do nothing for a kind of action. -/
def unsupported (kind : ActionKind) : List Binding := Binding.all.filter fun b => !kind.supports b

end ActionKind

/-! ## §2 Policies -/

/-- What happens when a file uses a binding that its action does not support. -/
inductive UnsupportedPolicy where
  /-- The use counts as empty text. -/
  | silent
  /-- The use counts as empty text, and a warning is given. -/
  | warn
  /-- The file fails. -/
  | error
  deriving DecidableEq, Repr, Inhabited

namespace UnsupportedPolicy

/-- The name of a policy. -/
def name : UnsupportedPolicy → String
  | .silent => "silent"
  | .warn => "warn"
  | .error => "error"

/-- All policies. -/
def all : List UnsupportedPolicy := [.silent, .warn, .error]

/-- The policy with a name. -/
def ofName? (name : String) : Option UnsupportedPolicy := all.find? fun p => p.name == name

/-- A name that is none of a policy. -/
structure NameError where
  name : String
  deriving DecidableEq, Repr, Inhabited

/-- The text of the error. -/
def NameError.message (e : NameError) : String :=
  "unknown policy '" ++ e.name ++ "', expected silent, warn or error"

/-- Reads the name of a policy. -/
def parse (name : String) : Except NameError UnsupportedPolicy :=
  match ofName? name with
  | some policy => .ok policy
  | none => .error ⟨name⟩

/-- Reads a policy out of a document. -/
def decode : Decoder UnsupportedPolicy := Decode.oneOf (all.map fun p => (p.name, p))

end UnsupportedPolicy

end SqlWorkflow
