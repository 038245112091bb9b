import SqlWorkflow.Json.Printer
import SqlWorkflow.Json.Reader
import SqlWorkflow.Document.Decode
import SqlWorkflow.Path
import SqlWorkflow.Text.Blank
import SqlWorkflow.Yaml.Reader

/-!
# Project settings

The settings of a project come from a settings file in one of two formats.  They say where
objects are put that do not say it themselves, and which affixes their names get.
-/

namespace SqlWorkflow

/-- The warehouse that a project is for. -/
inductive Warehouse where
  | bigquery
  deriving DecidableEq, Repr, Inhabited

/-- The name of a warehouse. -/
def Warehouse.name : Warehouse → String
  | .bigquery => "bigquery"

/-- The settings of a project. -/
structure ProjectConfig where
  warehouse : Warehouse := .bigquery
  defaultDatabase : Option String := none
  defaultSchema : String := "dataform"
  defaultLocation : Option String := none
  assertionSchema : String := "dataform_assertions"
  databaseSuffix : Option String := none
  schemaSuffix : Option String := none
  tablePrefix : Option String := none
  vars : Dict String := ∅
  coreVersion : Option String := none
  deriving DecidableEq, Repr, Inhabited

/-- The texts that are put before or after names. -/
inductive Affix where
  | databaseSuffix
  | schemaSuffix
  | tablePrefix
  /-- A schema suffix that a request asks for. -/
  | schemaSuffixOverride
  deriving DecidableEq, Repr

/-- The wording of an affix. -/
def Affix.label : Affix → String
  | .databaseSuffix => "database suffix"
  | .schemaSuffix => "schema suffix"
  | .tablePrefix => "table prefix"
  | .schemaSuffixOverride => "schema suffix override"

/-- Why settings are refused. -/
inductive SettingsError where
  /-- The text does not have the form of settings. -/
  | malformed (source : Source) (e : DecodeError)
  | unsupportedWarehouse (name : String)
  | emptyDefaultSchema
  | emptyAssertionSchema
  | badAffix (affix : Affix) (value : String)
  | versionMismatch (declared loaded : String)
  deriving Repr, Inhabited

namespace SettingsError

/-- What is wrong with a value of the settings. -/
def invalid (what : String) : String := "[E003] Invalid workflow settings: " ++ what

/-- The text of the error. -/
def message : SettingsError → String
  | .malformed .yaml e => "[E015] YAML parse error: " ++ e.message .yaml
  | .malformed source e => "JSON error: " ++ e.message source
  | .unsupportedWarehouse name =>
    "[E006] Unsupported warehouse '" ++ name ++ "'. Only 'bigquery' is supported"
  | .emptyDefaultSchema => invalid "default schema cannot be empty"
  | .emptyAssertionSchema => invalid "assertion schema cannot be empty"
  | .badAffix affix value =>
    invalid (affix.label ++ " '" ++ value ++ "' may only contain letters, digits and underscores")
  | .versionMismatch declared loaded =>
    "[E005] Version mismatch: project declares dataformCoreVersion '" ++ declared ++
      "' but the loaded core library is '" ++ loaded ++ "'"

end SettingsError

namespace ProjectConfig

/-! ## §1 Settings files -/

/-- The entries of a settings file. -/
structure File where
  warehouse : Option String := none
  defaultDatabase : Option String := none
  defaultSchema : Option String := none
  defaultLocation : Option String := none
  assertionSchema : Option String := none
  databaseSuffix : Option String := none
  schemaSuffix : Option String := none
  tablePrefix : Option String := none
  vars : Dict String := ∅
  coreVersion : Option String := none

/-- An optional text. -/
def optionalText (name : String) (put : Option String → File → File) : Decode.Field File :=
  Decode.field name (Decode.option Decode.string) put

/-- The entries of `workflow_settings.yaml`. -/
def yamlShape : Decode.Shape File where
  title := "struct WorkflowSettingsFile"
  closed := true
  fields :=
    [ (optionalText "defaultProject" fun v f => { f with defaultDatabase := v }).alias
        ["defaultDatabase", "defaultProject"],
      (optionalText "defaultDataset" fun v f => { f with defaultSchema := v }).alias
        ["defaultDataset", "defaultSchema"],
      optionalText "defaultLocation" fun v f => { f with defaultLocation := v },
      (optionalText "defaultAssertionDataset" fun v f => { f with assertionSchema := v }).alias
        ["assertionSchema", "defaultAssertionDataset"],
      (optionalText "projectSuffix" fun v f => { f with databaseSuffix := v }).alias
        ["databaseSuffix", "projectSuffix"],
      (optionalText "datasetSuffix" fun v f => { f with schemaSuffix := v }).alias
        ["datasetSuffix", "schemaSuffix"],
      (optionalText "namePrefix" fun v f => { f with tablePrefix := v }).alias
        ["namePrefix", "tablePrefix"],
      Decode.field "vars" (Decode.dict Decode.string) fun v f => { f with vars := v },
      optionalText "dataformCoreVersion" fun v f => { f with coreVersion := v },
      optionalText "warehouse" fun v f => { f with warehouse := v } ]

/-- The entries of `dataform.json`. -/
def jsonShape : Decode.Shape File where
  title := "struct DataformJsonFile"
  closed := true
  fields :=
    [ optionalText "warehouse" fun v f => { f with warehouse := v },
      optionalText "defaultDatabase" fun v f => { f with defaultDatabase := v },
      optionalText "defaultSchema" fun v f => { f with defaultSchema := v },
      optionalText "defaultLocation" fun v f => { f with defaultLocation := v },
      optionalText "assertionSchema" fun v f => { f with assertionSchema := v },
      optionalText "databaseSuffix" fun v f => { f with databaseSuffix := v },
      optionalText "schemaSuffix" fun v f => { f with schemaSuffix := v },
      optionalText "tablePrefix" fun v f => { f with tablePrefix := v },
      Decode.field "vars" (Decode.dict Decode.string) fun v f => { f with vars := v },
      optionalText "dataformCoreVersion" fun v f => { f with coreVersion := v } ]

/-- The affixes of a project. -/
def affixes (config : ProjectConfig) : List (Affix × Option String) :=
  [ (.databaseSuffix, config.databaseSuffix), (.schemaSuffix, config.schemaSuffix),
    (.tablePrefix, config.tablePrefix) ]

/-- The first affix with a character that names must not have. -/
def badAffix? (config : ProjectConfig) : Option (Affix × String) :=
  config.affixes.findSome? fun (affix, value) =>
    (value.filter fun v => !Path.isValidAffix v).map (affix, ·)

/-- The settings if all their values are usable. -/
def validate (config : ProjectConfig) : Except SettingsError ProjectConfig :=
  if config.defaultSchema.isEmpty then .error .emptyDefaultSchema
  else if config.assertionSchema.isEmpty then .error .emptyAssertionSchema
  else
    match config.badAffix? with
    | some (affix, value) => .error (.badAffix affix value)
    | none => .ok config

/-- The settings that a file describes. -/
def ofFile (file : File) : Except SettingsError ProjectConfig := do
  let warehouse ← match file.warehouse with
    | none | some "bigquery" => .ok Warehouse.bigquery
    | some other => .error (.unsupportedWarehouse other)
  validate
    { warehouse
      defaultDatabase := file.defaultDatabase
      defaultSchema := file.defaultSchema.getD ({} : ProjectConfig).defaultSchema
      defaultLocation := file.defaultLocation
      assertionSchema := file.assertionSchema.getD ({} : ProjectConfig).assertionSchema
      databaseSuffix := file.databaseSuffix
      schemaSuffix := file.schemaSuffix
      tablePrefix := file.tablePrefix
      vars := file.vars
      coreVersion := file.coreVersion }

/-- The settings of the text of `workflow_settings.yaml`; blank text leaves everything open. -/
def ofYaml (text : String) : Except SettingsError ProjectConfig := do
  let file ←
    if Text.isAllBlank text then .ok {}
    else (Decode.whole (yamlShape.decode {}) .yaml (Yaml.read text)).mapError (.malformed .yaml)
  ofFile file

/-- The settings of the text of `dataform.json`. -/
def ofJson (text : String) : Except SettingsError ProjectConfig := do
  let file ←
    (Decode.whole (jsonShape.decode {}) .jsonText (Json.read text)).mapError (.malformed .jsonText)
  ofFile file

/-! ## §2 Requests -/

/-- What a single request changes. -/
structure Overrides where
  schemaSuffix : Option String := none
  vars : Dict String := ∅
  deriving DecidableEq, Repr, Inhabited

/-- The settings with the changes of a request; an empty suffix removes the project's own. -/
def override (config : ProjectConfig) (o : Overrides) : Except SettingsError ProjectConfig := do
  let config ← match o.schemaSuffix with
    | none => .ok config
    | some suffix =>
      if !Path.isValidAffix suffix then .error (.badAffix .schemaSuffixOverride suffix)
      else .ok { config with schemaSuffix := if suffix.isEmpty then none else some suffix }
  return { config with vars := config.vars.extend o.vars.entries }

/-- A change of settings in place that may fail; the settings after a failure are kept too. -/
abbrev Update (α : Type) := ExceptT SettingsError (StateM ProjectConfig) α

/-- Changes the settings as a request asks: first the schema suffix, then the variables. -/
def applyOverrides (o : Overrides) : Update Unit := do
  match o.schemaSuffix with
  | some suffix =>
    if !Path.isValidAffix suffix then throw (.badAffix .schemaSuffixOverride suffix)
    else
      modify fun config =>
        { config with schemaSuffix := if suffix.isEmpty then none else some suffix }
  | none => pure ()
  modify fun config => { config with vars := config.vars.extend o.vars.entries }

/-- The outcome of a request and the settings after it. -/
def request (config : ProjectConfig) (o : Overrides) : Except SettingsError Unit × ProjectConfig :=
  StateT.run (ExceptT.run (applyOverrides o)) config

/-- The project may name the version of the core library that it needs. -/
def checkVersion (config : ProjectConfig) (loaded : String) : Except SettingsError Unit :=
  match config.coreVersion with
  | some declared => if declared = loaded then .ok () else .error (.versionMismatch declared loaded)
  | none => .ok ()

/-! ## §3 Affixes -/

/-- A name before or after which a text is put, with an underscore between them. -/
def suffixed (affix : Option String) (s : String) : String :=
  match affix with
  | some a => if a.isEmpty then s else s ++ "_" ++ a
  | none => s

/-- The name of an object in the warehouse. -/
def runtimeName (config : ProjectConfig) (name : String) : String :=
  match config.tablePrefix with
  | some p => if p.isEmpty then name else p ++ "_" ++ name
  | none => name

/-- The schema of an object in the warehouse. -/
def runtimeSchema (config : ProjectConfig) (schema : String) : String :=
  suffixed config.schemaSuffix schema

/-- The database of an object in the warehouse. -/
def runtimeDatabase (config : ProjectConfig) (database : Option String) : Option String :=
  database.map (suffixed config.databaseSuffix)

/-! ## §4 JSON -/

/-- A dictionary of texts, left out if it is empty. -/
def textsUnlessEmpty (d : Dict String) : Option Json :=
  if d.isEmpty then none else some (Json.ofDict .str d)

/-- The settings as JSON. -/
def toJson (config : ProjectConfig) : Json :=
  Json.present
    [ ("warehouse", some (.str config.warehouse.name)),
      ("defaultDatabase", config.defaultDatabase.map .str),
      ("defaultSchema", some (.str config.defaultSchema)),
      ("defaultLocation", config.defaultLocation.map .str),
      ("assertionSchema", some (.str config.assertionSchema)),
      ("databaseSuffix", config.databaseSuffix.map .str),
      ("schemaSuffix", config.schemaSuffix.map .str),
      ("tablePrefix", config.tablePrefix.map .str),
      ("vars", textsUnlessEmpty config.vars),
      ("dataformCoreVersion", config.coreVersion.map .str) ]

/-- The fields of settings in a document. -/
def shape : Decode.Shape ProjectConfig where
  title := "struct ProjectConfig"
  fields :=
    let text (name : String) (put : Option String → ProjectConfig → ProjectConfig) :=
      Decode.field name (Decode.option Decode.string) put
    [ (Decode.field "warehouse" (Decode.oneOf [("bigquery", Warehouse.bigquery)])
        fun v c => { c with warehouse := v }).mandatory,
      text "defaultDatabase" fun v c => { c with defaultDatabase := v },
      (Decode.field "defaultSchema" Decode.string fun v c =>
        { c with defaultSchema := v }).mandatory,
      text "defaultLocation" fun v c => { c with defaultLocation := v },
      (Decode.field "assertionSchema" Decode.string fun v c =>
        { c with assertionSchema := v }).mandatory,
      text "databaseSuffix" fun v c => { c with databaseSuffix := v },
      text "schemaSuffix" fun v c => { c with schemaSuffix := v },
      text "tablePrefix" fun v c => { c with tablePrefix := v },
      Decode.field "vars" (Decode.dict Decode.string) fun v c => { c with vars := v },
      text "dataformCoreVersion" fun v c => { c with coreVersion := v } ]

/-- Reads settings. -/
def decode : Decoder ProjectConfig := shape.decode {}

end ProjectConfig

end SqlWorkflow
