import SqlWorkflow.Evaluation.CallError
import SqlWorkflow.Target.Reference
import SqlWorkflow.Template.Interchange

/-!
# Arguments of calls

What the functions that describe actions make of the values that they are called with.
-/

namespace SqlWorkflow.Evaluation

open Template

/-- The text in an item of a list of texts. -/
def itemText (item : Value) : Except CallError String :=
  match item.text? with
  | some s => .ok s
  | none => .error (.notText item.kind)

/-- Some texts: one, a list of them, or none. -/
def textsOf (v : Value) : Except CallError (List String) :=
  match v with
  | .text s | .markup s => .ok [s]
  | .list items => items.mapM itemText
  | .group key items => [key, .iterator items].mapM itemText
  | .undefined | .none => .ok []
  | v => .error (.notTexts v.kind)

/-- The texts of all arguments. -/
def allTexts (args : List Value) : Except CallError (List String) :=
  List.flatten <$> args.mapM textsOf

/-- An argument that must be text. -/
def textOf (what : String) (arg : Option Value) : Except CallError String :=
  match arg.bind Value.text? with
  | some s => .ok s
  | none => .error (.noText what)

/-- A flag that is set by being mentioned. -/
def flagOf (args : List Value) : Bool :=
  match args with
  | [] => true
  | v :: _ => v.isTrue

/-- Reads what a JSON value says. -/
def readJson {α : Type} (what : String) (decode : Decoder α) (value : Json) : Except CallError α :=
  (decode .jsonValue value.toDoc).mapError (.badConfig what)

/-- Reads what a value says. -/
def readValue {α : Type} (what : String) (decode : Decoder α) (v : Value) : Except CallError α :=
  readJson what decode v.toJson

/-- The entries of all arguments together, the named arguments being entries too. -/
def mergedEntries (what : String) : List Value → Except CallError (List (String × Json))
  | [] => .ok []
  | v :: rest =>
    match v.toJson with
    | .obj members => do return members ++ (← mergedEntries what rest)
    | _ => .error (.noMapping what)

/-- Reads what all arguments say together. -/
def readMerged {α : Type} (what : String) (decode : Decoder α) (args : List Value) :
    Except CallError α := do
  let entries ← mergedEntries what args
  readJson what decode (.obj (sortEntries entries))

/-- The reference that is meant by a dotted name, a dictionary of its parts, or up to three
arguments. -/
def referenceOf (args : List Value) : Except CallError TargetRef :=
  match args with
  | [v] =>
    match v.kind, v.text? with
    | .map, _ => readValue "ref" TargetRef.decode v
    | _, some s => if s.isEmpty then .error .emptyReference else .ok (TargetRef.parse s)
    | _, none => .error .badReference
  | args => do
    let parts ← args.mapM fun v =>
      match v.text? with
      | some s => .ok s
      | none => .error .badReferencePart
    (TargetRef.ofParts parts).mapError fun e => .action (.reference e)

/-- A name alone, or the name and the rest of a configuration. -/
def nameAndConfig (what : String) (v : Value) :
    Except CallError (String × List (String × Json)) :=
  match v.text? with
  | some name => .ok (name, [])
  | none =>
    match v.toJson with
    | .obj members =>
      match lookupEntry "name" members with
      | some (.str name) => .ok (name, members.filter fun entry => entry.1 != "name")
      | _ => .error (.noName what)
    | _ => .error (.noNameOrConfig what)

end SqlWorkflow.Evaluation
