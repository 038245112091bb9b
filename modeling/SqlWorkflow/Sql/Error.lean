import SqlWorkflow.Document.Error
import SqlWorkflow.Sql.Lexer

/-!
# Why a definition file is refused
-/

namespace SqlWorkflow.Sql

/-- A rule that a definition file breaks. -/
inductive Violation where
  /-- The section holds code in the place of SQL, or SQL in the place of code. -/
  | malformed (keyword : Keyword)
  | separatorInWhere
  | separatorInInput
  | severalConfigs
  | severalStatements
  | outputFlag
  | columns
  | protectedFlag
  | whereClause
  | declarationWithoutSchema
  | declarationWithSql
  | datasetOutsideTest
  | testWithoutDataset
  | inputOutsideTest
  | disabledFlag
  | warehouseOptions
  | preOperations
  | postOperations
  deriving DecidableEq, Repr, Inhabited

/-- The wording of a rule. -/
def Violation.message : Violation → String
  | .malformed keyword => "Malformed " ++ keyword.text ++ " block"
  | .separatorInWhere =>
    "Incremental code blocks may not contain SQL statement separators ('---')."
  | .separatorInInput => "Input code blocks may not contain SQL statement separators ('---')."
  | .severalConfigs => "Actions may only contain one config block."
  | .severalStatements =>
    "Actions may only contain more than one SQL statement if they are of type 'operations'."
  | .outputFlag => "Actions may only specify 'hasOutput: true' if they are of type 'operations'."
  | .columns => "Actions may only specify 'columns' if they create or declare a dataset."
  | .protectedFlag =>
    "Actions may only specify 'protected: true' if they are of type 'incremental'."
  | .whereClause =>
    "Actions may only include incremental_where if they are of type 'incremental'."
  | .declarationWithoutSchema =>
    "Actions of type 'declaration' must specify a value for 'schema'."
  | .declarationWithSql => "Actions of type 'declaration' may not contain SQL."
  | .datasetOutsideTest => "Actions may only specify 'dataset' if they are of type 'test'."
  | .testWithoutDataset => "Actions must specify 'dataset' if they are of type 'test'."
  | .inputOutsideTest => "Actions may only include input blocks if they are of type 'test'."
  | .disabledFlag => "Actions may only specify 'disabled: true' if they create a dataset."
  | .warehouseOptions =>
    "Actions may only specify 'bigquery: \x7b ... \x7d' if they create a dataset."
  | .preOperations => "Actions may only include pre_operations if they create a dataset."
  | .postOperations => "Actions may only include post_operations if they create a dataset."

/-- Why a definition file has no program. -/
inductive ProgramError where
  | lex (e : LexError)
  | config (e : DecodeError)
  | violations (rules : List Violation)
  /-- There is no kind of definition file with such a name. -/
  | unsupported (path : String)
  deriving Repr, Inhabited

/-- The text of the error. -/
def ProgramError.message : ProgramError → String
  | .lex e => "[X001] " ++ e.message
  | .config e => "[X002] Invalid config block: " ++ e.message .yaml
  | .violations rules => "[X003] " ++ Text.join "; " (rules.map Violation.message)
  | .unsupported path => "[X004] Unsupported definition file: " ++ path

end SqlWorkflow.Sql
