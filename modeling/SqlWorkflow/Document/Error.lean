import SqlWorkflow.Document.Word
import SqlWorkflow.Decimal.Layout
import SqlWorkflow.Text.Quoted

/-!
# Why a document is refused

A document is refused because its text is malformed (`fault`) or because a value in it has the
wrong shape.  A shape error knows what was found and what was expected; in YAML documents its text
also says where the value stands.
-/

namespace SqlWorkflow

/-- Where a document came from. -/
inductive Source where
  /-- JSON text, read from front to back. -/
  | jsonText
  /-- A JSON value already in memory. -/
  | jsonValue
  | yaml
  /-- Part of a document that was set aside before its shape was known. -/
  | aside
  deriving DecidableEq, Repr, Inhabited

/-- The kind of value that stands in a place where another kind is expected. -/
inductive Found where
  | string (s : String)
  | integer (n : Int)
  | boolean (b : Bool)
  | fraction (x : Float)
  | null
  /-- The null value of a YAML document. -/
  | unit
  | sequence
  | map
  deriving Repr, Inhabited

namespace Found

/-- The wording of what was found. -/
def describe : Found → String
  | .string s => "string " ++ Text.displayQuoted s
  | .integer n => "integer `" ++ toString n ++ "`"
  | .boolean b => "boolean `" ++ (if b then "true" else "false") ++ "`"
  | .fraction x => "floating point `" ++ Decimal.Layout.plain.write x ++ "`"
  | .null => "null"
  | .unit => "unit value"
  | .sequence => "sequence"
  | .map => "map"

end Found

/-- A value of the wrong shape. -/
inductive ShapeError where
  | unknownField (name : String) (expected : List String)
  | missingField (name : String)
  | duplicateField (name : String)
  | unknownVariant (name : String) (expected : List String)
  | noVariant (type : String)
  | invalidType (found : Found) (expected : String)
  | invalidValue (found : Found) (expected : String)
  | invalidLength (length : Nat) (expected : String)
  deriving Repr, Inhabited

namespace ShapeError

/-- The alternatives of a closed list of names. -/
def alternatives : List String → String
  | [] => ""
  | [a] => "expected `" ++ a ++ "`"
  | [a, b] => "expected `" ++ a ++ "` or `" ++ b ++ "`"
  | names => "expected one of " ++ Text.join ", " (names.map fun a => "`" ++ a ++ "`")

/-- The wording of a shape error. -/
def message : ShapeError → String
  | .unknownField name expected => "unknown field `" ++ name ++ "`, " ++ alternatives expected
  | .missingField name => "missing field `" ++ name ++ "`"
  | .duplicateField name => "duplicate field `" ++ name ++ "`"
  | .unknownVariant name expected => "unknown variant `" ++ name ++ "`, " ++ alternatives expected
  | .noVariant type => "data did not match any variant of untagged enum " ++ type
  | .invalidType found expected =>
    "invalid type: " ++ found.describe ++ ", expected " ++ expected
  | .invalidValue found expected =>
    "invalid value: " ++ found.describe ++ ", expected " ++ expected
  | .invalidLength length expected =>
    "invalid length " ++ toString length ++ ", expected " ++ expected

end ShapeError

/-- One step from a value to a part of it. -/
inductive Step where
  | key (name : String)
  | index (i : Nat)
  /-- To a value under a key that is not text. -/
  | unnamed
  deriving DecidableEq, Repr, Inhabited

/-- The text of a path, with a trailing separator; the path to the whole document is empty. -/
def Step.renderPath (path : List Step) : String :=
  let step (acc : String) : Step → String
    | .key name => (if acc.isEmpty then "" else acc ++ ".") ++ name
    | .index i => (if acc.isEmpty then "." else acc) ++ "[" ++ toString i ++ "]"
    | .unnamed => (if acc.isEmpty then "" else acc ++ ".") ++ "?"
  if path.isEmpty then "" else path.foldl step "" ++ ": "

/-- Why a document is refused. -/
inductive DecodeError where
  /-- The text is malformed. -/
  | fault
  /-- A value has the wrong shape.  The path is known once a container has placed the error. -/
  | shape (path : Option (List Step)) (cause : ShapeError)
  deriving Repr, Inhabited

namespace DecodeError

/-- The text of the error.  Of a malformed text nothing more is said than that. -/
def message (source : Source) : DecodeError → String
  | .fault => "<syntax>"
  | .shape path cause =>
    match source with
    | .yaml => Step.renderPath (path.getD []) ++ cause.message
    | _ => cause.message

/-- The error as seen from the container of the value: one step further away. -/
def under (step : Step) : DecodeError → DecodeError
  | .shape (some path) cause => .shape (some (step :: path)) cause
  | e => e

/-- The error as placed at the value that is being read. -/
def place : DecodeError → DecodeError
  | .shape none cause => .shape (some []) cause
  | e => e

end DecodeError

end SqlWorkflow
