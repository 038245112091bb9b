import SqlWorkflow.Sql.Error

/-!
# The sections of a definition file

The nodes of a file of the sectioned dialect, sorted by what they are for.
-/

namespace SqlWorkflow.Sql

/-- The parts of a file. -/
structure Sections where
  /-- The bodies of the sections that configure the action. -/
  configs : List String := []
  /-- The bodies of the code sections, in order. -/
  code : List String := []
  /-- The SQL outside all sections. -/
  statements : List (List Fragment) := []
  preOperations : List (List Fragment) := []
  postOperations : List (List Fragment) := []
  incrementalWhere : Option (List Fragment) := none
  /-- The inputs by name, in the order of their first sections. -/
  inputs : List (String × List Fragment) := []
  deriving DecidableEq, Repr, Inhabited

/-- The name between the first two double quotes of a section's opening. -/
def inputLabel? (opening : List Char) : Option (List Char) :=
  match opening.dropWhile (· != '"') with
  | _ :: rest => if rest.contains '"' then some (rest.takeWhile (· != '"')) else none
  | [] => none

/-- The inputs with the fragments of one more section: a repeated name extends its input. -/
def addInput (name : String) (body : List Fragment) :
    List (String × List Fragment) → List (String × List Fragment)
  | [] => [(name, body)]
  | input :: rest =>
    if input.1 = name then (name, input.2 ++ body) :: rest
    else input :: addInput name body rest

namespace Sections

/-- The parts with one more node.  Fragments are left alone here. -/
def add (s : Sections) : Node → Except Violation Sections
  | .braced (.code .config) _ (.code code) => .ok { s with configs := s.configs ++ [code] }
  | .braced (.code .jinja) _ (.code code) => .ok { s with code := s.code ++ [code] }
  | .braced (.sql .preOperations) _ (.sql body) =>
    .ok { s with preOperations := s.preOperations ++ Sql.statements body }
  | .braced (.sql .postOperations) _ (.sql body) =>
    .ok { s with postOperations := s.postOperations ++ Sql.statements body }
  | .braced (.sql .incrementalWhere) _ (.sql body) =>
    if body.any Fragment.isSeparator then .error .separatorInWhere
    else .ok { s with incrementalWhere := some (s.incrementalWhere.getD [] ++ body) }
  | .braced (.sql .input) opening (.sql body) =>
    if body.any Fragment.isSeparator then .error .separatorInInput
    else
      let name := String.ofList ((inputLabel? opening.toList).getD [])
      .ok { s with inputs := addInput name body s.inputs }
  | .braced keyword _ _ => .error (.malformed keyword)
  | .codeBlock _ _ _ => .ok s
  | .fragment _ => .ok s

/-- The parts with more nodes, from first to last. -/
def addAll (s : Sections) : List Node → Except Violation Sections
  | [] => .ok s
  | node :: rest => do
    let s ← s.add node
    s.addAll rest

/-- The parts of a file. -/
def ofTree (t : Tree) : Except Violation Sections := do
  let s ← ({} : Sections).addAll t.nodes
  return { s with statements := Sql.statements t.fragments }

end Sections

end SqlWorkflow.Sql
