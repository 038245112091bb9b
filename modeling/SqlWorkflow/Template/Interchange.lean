import SqlWorkflow.Json.Basic
import SqlWorkflow.Template.Value

/-!
# Values and JSON

A JSON value becomes a value of templates and back.  Whole numbers of 64 bits stay whole; greater
ones become floats.  What JSON has no form for is written as text, and a missing value as `null`.
-/

namespace SqlWorkflow.Template.Value

/-- The value of a JSON number. -/
def ofNumber : Number → Value
  | .int n => if isWord n then .int n else .float (Float.ofInt n)
  | .float x => .float x

mutual

/-- The value that a JSON value denotes. -/
def ofJson : Json → Value
  | .null => .none
  | .bool b => .bool b
  | .num n => ofNumber n
  | .str s => .text s
  | .arr items => .list (ofItems items)
  | .obj members => ofEntries (ofMembers members)

def ofItems : List Json → List Value
  | [] => []
  | item :: rest => ofJson item :: ofItems rest

def ofMembers : List (String × Json) → List (Value × Value)
  | [] => []
  | (name, value) :: rest => (.text name, ofJson value) :: ofMembers rest

end

/-- The JSON form of a float; what is no number is `null`. -/
def floatJson (x : Float) : Json :=
  match wholeOf? x with
  | some n => .num (.int n)
  | .none => if x.isFinite then .num (.float x) else .null

mutual

/-- The JSON form of a value. -/
def toJson : Value → Json
  | .undefined | .none => .null
  | .bool b => .bool b
  | .int n => if isWord n then .num (.int n) else floatJson (Float.ofInt n)
  | .float x => floatJson x
  | .text s | .markup s => .str s
  | .list items => .arr (itemsJson items)
  | .dict entries => .obj (sortEntries (entriesJson entries))
  | .arguments entries => .obj (sortEntries (namedJson entries))
  | .record entries _ => .obj (sortEntries (namedJson entries))
  | .scope _ | .loop _ => .obj []
  | .definition d =>
    .obj [("arguments", Json.strings (d.params.map (·.name))), ("caller", .bool d.usesCaller),
      ("name", .str d.name)]
  | .iterator items => .str (Value.iterator items).write
  | .group key items => .arr [key.toJson, .str (Value.iterator items).write]
  | .function name => .str name
  | .handle h => .str h.label

def itemsJson : List Value → List Json
  | [] => []
  | item :: rest => item.toJson :: itemsJson rest

/-- The members for the entries of a dictionary; a key that is no text has the empty name. -/
def entriesJson : List (Value × Value) → List (String × Json)
  | [] => []
  | (key, value) :: rest => (key.text?.getD "", value.toJson) :: entriesJson rest

def namedJson : List (String × Value) → List (String × Json)
  | [] => []
  | (key, value) :: rest => (key, value.toJson) :: namedJson rest

end

end SqlWorkflow.Template.Value
