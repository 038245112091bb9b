import SqlWorkflow.Action.Config

/-!
# Why an action is refused
-/

namespace SqlWorkflow

/-- What a configuration is for. -/
inductive ConfigSubject where
  | action (kind : ActionKind)
  | test
  deriving DecidableEq, Repr, Inhabited

/-- The wording of what a configuration is for. -/
def ConfigSubject.name : ConfigSubject → String
  | .action kind => kind.name
  | .test => "test"

/-- What is wrong with the configuration of an action. -/
inductive ConfigFault where
  /-- Only a unit test is about a dataset. -/
  | dataset
  | wrongType (type : ConfigType) (subject : ConfigSubject)
  | emptyName
  | noTableType (kind : ActionKind)
  /-- Only an operation says whether it has output. -/
  | outputFlag
  | noQuery (kind : ActionKind)
  | noContents
  /-- The key means nothing to a unit test. -/
  | testKey (key : String)
  deriving DecidableEq, Repr, Inhabited

/-- The wording of a fault. -/
def ConfigFault.message : ConfigFault → String
  | .dataset => "Actions may only specify 'dataset' if they are of type 'test'."
  | .wrongType type subject =>
    "type " ++ type.name.capitalize ++ " cannot be used on a " ++ subject.name
  | .emptyName => "name cannot be empty"
  | .noTableType kind => "a " ++ kind.name ++ " has no table type"
  | .outputFlag => "hasOutput is only valid for operations"
  | .noQuery kind => kind.name ++ " has no query"
  | .noContents => "notebook has no contents"
  | .testKey key =>
    "Unexpected property \"" ++ key ++ "\" in test config. Supported properties are: " ++
      "type, dataset, name, tags, dependencies"

/-- Why an action is refused. -/
inductive ActionError where
  /-- The action is finished and takes no more changes. -/
  | isSealed (name : String)
  /-- What is declared in a file has no name. -/
  | noName (subject : ConfigSubject) (file : String)
  | invalid (name : String) (fault : ConfigFault)
  | reference (e : ReferenceError)
  deriving DecidableEq, Repr, Inhabited

/-- The text of the error. -/
def ActionError.message : ActionError → String
  | .isSealed name =>
    "[E008] Action '" ++ name ++ "' has already been compiled and can no longer be modified"
  | .noName subject file => "[E009] Empty name in " ++ subject.name ++ " declared in " ++ file
  | .invalid name fault => "[E010] Invalid action config for '" ++ name ++ "': " ++ fault.message
  | .reference e => e.message

end SqlWorkflow
