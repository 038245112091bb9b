import SqlWorkflow.Document.Decode
import SqlWorkflow.Json.Basic
import SqlWorkflow.Json.Reader

/-!
# Warehouse credentials

What is needed to log in to a warehouse; the kind of warehouse decides what that is.  Properties
that must be there are looked for before any of them is read, so all absent ones are reported at
once.
-/

namespace SqlWorkflow

/-- A service account of BigQuery. -/
structure BigQueryCredentials where
  projectId : String := ""
  /-- The key of the account, itself a JSON text. -/
  credentials : String := ""
  location : Option String := none
  deriving DecidableEq, Repr, Inhabited

/-- An account of a database server. -/
structure ServerCredentials where
  host : String := ""
  port : Nat := 0
  username : String := ""
  password : String := ""
  databaseName : String := ""
  ssl : Bool := false
  deriving DecidableEq, Repr, Inhabited

/-- An account of Snowflake. -/
structure SnowflakeCredentials where
  accountId : String := ""
  username : String := ""
  password : String := ""
  role : String := ""
  databaseName : String := ""
  warehouse : String := ""
  deriving DecidableEq, Repr, Inhabited

/-- An account of a SQL data warehouse. -/
structure SqlDataWarehouseCredentials where
  server : String := ""
  port : Nat := 0
  username : String := ""
  password : String := ""
  database : String := ""
  deriving DecidableEq, Repr, Inhabited

/-- Credentials of any kind. -/
inductive Credentials where
  | bigquery (c : BigQueryCredentials)
  | server (c : ServerCredentials)
  | snowflake (c : SnowflakeCredentials)
  | sqlDataWarehouse (c : SqlDataWarehouseCredentials)
  deriving DecidableEq, Repr, Inhabited

/-- Why credentials are refused. -/
inductive CredentialsError where
  | noFile
  | unknownWarehouse (name : String)
  | notAnObject
  | malformed (source : Source) (e : DecodeError)
  | missing (properties : List String)
  deriving Repr

/-- The text of the error. -/
def CredentialsError.message : CredentialsError → String
  | .noFile => "[CRD001] Missing credentials JSON file."
  | .unknownWarehouse name => "[CRD002] Unrecognized warehouse: " ++ name
  | .notAnObject => "[CRD003] Credentials JSON object is invalid: expected a JSON object"
  | .malformed source e => "[CRD003] Credentials JSON object is invalid: " ++ e.message source
  | .missing properties => "[CRD004] Missing required properties: " ++ Text.join ", " properties

/-! ## §1 The kinds -/

/-- A property that must be present. -/
def neededProperty {σ α : Type} (name : String) (decode : Decoder α) (put : α → σ → σ) :
    Decode.Field σ :=
  (Decode.field name decode put).mandatory

namespace BigQueryCredentials

def toJson (c : BigQueryCredentials) : Json :=
  Json.present
    [ ("projectId", some (.str c.projectId)), ("credentials", some (.str c.credentials)),
      ("location", c.location.map .str) ]

def shape : Decode.Shape BigQueryCredentials where
  title := "struct BigQueryCredentials"
  fields :=
    [ neededProperty "projectId" Decode.string fun v c => { c with projectId := v },
      neededProperty "credentials" Decode.string fun v c => { c with credentials := v },
      Decode.field "location" (Decode.option Decode.string) fun v c => { c with location := v } ]

end BigQueryCredentials

namespace ServerCredentials

def toJson (c : ServerCredentials) : Json :=
  .obj
    [ ("host", .str c.host), ("port", .nat c.port), ("username", .str c.username),
      ("password", .str c.password), ("databaseName", .str c.databaseName),
      ("ssl", .bool c.ssl) ]

def shape : Decode.Shape ServerCredentials where
  title := "struct JdbcCredentials"
  fields :=
    [ neededProperty "host" Decode.string fun v c => { c with host := v },
      neededProperty "port" (Decode.natural 16) fun v c => { c with port := v },
      neededProperty "username" Decode.string fun v c => { c with username := v },
      neededProperty "password" Decode.string fun v c => { c with password := v },
      neededProperty "databaseName" Decode.string fun v c => { c with databaseName := v },
      Decode.field "ssl" Decode.bool fun v c => { c with ssl := v } ]

end ServerCredentials

namespace SnowflakeCredentials

def toJson (c : SnowflakeCredentials) : Json :=
  .obj
    [ ("accountId", .str c.accountId), ("username", .str c.username),
      ("password", .str c.password), ("role", .str c.role),
      ("databaseName", .str c.databaseName), ("warehouse", .str c.warehouse) ]

def shape : Decode.Shape SnowflakeCredentials where
  title := "struct SnowflakeCredentials"
  fields :=
    [ neededProperty "accountId" Decode.string fun v c => { c with accountId := v },
      neededProperty "username" Decode.string fun v c => { c with username := v },
      neededProperty "password" Decode.string fun v c => { c with password := v },
      neededProperty "role" Decode.string fun v c => { c with role := v },
      neededProperty "databaseName" Decode.string fun v c => { c with databaseName := v },
      neededProperty "warehouse" Decode.string fun v c => { c with warehouse := v } ]

end SnowflakeCredentials

namespace SqlDataWarehouseCredentials

def toJson (c : SqlDataWarehouseCredentials) : Json :=
  .obj
    [ ("server", .str c.server), ("port", .nat c.port), ("username", .str c.username),
      ("password", .str c.password), ("database", .str c.database) ]

def shape : Decode.Shape SqlDataWarehouseCredentials where
  title := "struct SqlDataWarehouseCredentials"
  fields :=
    [ neededProperty "server" Decode.string fun v c => { c with server := v },
      neededProperty "port" (Decode.natural 16) fun v c => { c with port := v },
      neededProperty "username" Decode.string fun v c => { c with username := v },
      neededProperty "password" Decode.string fun v c => { c with password := v },
      neededProperty "database" Decode.string fun v c => { c with database := v } ]

end SqlDataWarehouseCredentials

/-! ## §2 Reading credentials -/

namespace Credentials

/-- The credentials as JSON. -/
def toJson : Credentials → Json
  | .bigquery c => c.toJson
  | .server c => c.toJson
  | .snowflake c => c.toJson
  | .sqlDataWarehouse c => c.toJson

/-- The kinds of credentials. -/
inductive Kind where
  | bigquery
  | server
  | snowflake
  | sqlDataWarehouse
  deriving DecidableEq, Repr

/-- The kind of credentials for a warehouse. -/
def Kind.ofWarehouse? (name : String) : Option Kind :=
  lookupEntry name
    [ ("bigquery", .bigquery), ("postgres", .server), ("redshift", .server),
      ("snowflake", .snowflake), ("sqldatawarehouse", .sqlDataWarehouse) ]

/-- The properties that must be present and not null. -/
def Kind.required : Kind → List String
  | .bigquery => ["projectId", "credentials"]
  | .server => ["host", "port", "username", "password", "databaseName"]
  | .snowflake => ["accountId", "username", "password", "role", "databaseName", "warehouse"]
  | .sqlDataWarehouse => ["server", "port", "username", "password", "database"]

/-- Reads credentials of a kind. -/
def Kind.decode (kind : Kind) : Decoder Credentials := fun source doc =>
  match kind with
  | .bigquery => (BigQueryCredentials.shape.decode {} source doc).map .bigquery
  | .server => (ServerCredentials.shape.decode {} source doc).map .server
  | .snowflake => (SnowflakeCredentials.shape.decode {} source doc).map .snowflake
  | .sqlDataWarehouse =>
    (SqlDataWarehouseCredentials.shape.decode {} source doc).map .sqlDataWarehouse

/-- The required properties that are absent or null. -/
def missing (kind : Kind) (members : List (String × Json)) : List String :=
  kind.required.filter fun name =>
    match lookupEntry name members with
    | none | some .null => true
    | some _ => false

/-- The credentials for a warehouse that a JSON value holds. -/
def ofJson (warehouse : String) (value : Json) : Except CredentialsError Credentials :=
  match Kind.ofWarehouse? warehouse with
  | none => .error (.unknownWarehouse warehouse)
  | some kind =>
    match value with
    | .obj members =>
      let absent := missing kind members
      if absent.isEmpty then
        (kind.decode .jsonValue value.toDoc).mapError (.malformed .jsonValue)
      else .error (.missing absent)
    | _ => .error .notAnObject

/-- The credentials for a warehouse that the text of a file holds. -/
def ofText (warehouse text : String) : Except CredentialsError Credentials :=
  match Json.parse? text with
  | some value => ofJson warehouse value
  | none => .error (.malformed .jsonText .fault)

end Credentials

end SqlWorkflow
