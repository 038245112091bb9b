import SqlWorkflow.Dict
import SqlWorkflow.Document.Error

/-!
# JSON values

A JSON value in memory.  The members of an object that is made from a document are in the order
of their names; the members of an object that the library writes stand in the order of the
format.
-/

namespace SqlWorkflow

/-- A JSON value. -/
inductive Json where
  | null
  | bool (b : Bool)
  | num (n : Number)
  | str (s : String)
  | arr (items : List Json)
  | obj (members : List (String × Json))
  deriving Repr, Inhabited

namespace Json

/-- A whole number. -/
def nat (n : Nat) : Json := .num (.int n)

/-- An array of texts. -/
def strings (texts : List String) : Json := .arr (texts.map .str)

/-- An object with the entries of a dictionary. -/
def ofDict {α : Type} (encode : α → Json) (d : Dict α) : Json :=
  .obj (d.entries.map fun (name, value) => (name, encode value))

/-- An object with those of the given members that are present. -/
def present (members : List (String × Option Json)) : Json :=
  .obj (members.filterMap fun (name, value?) => value?.map (name, ·))

mutual

/-- The value with the members of every object in the order of their names. -/
def sorted : Json → Json
  | .arr items => .arr (sortedItems items)
  | .obj members => .obj (sortEntries (sortedMembers members))
  | value => value

def sortedItems : List Json → List Json
  | [] => []
  | item :: rest => item.sorted :: sortedItems rest

def sortedMembers : List (String × Json) → List (String × Json)
  | [] => []
  | (name, value) :: rest => (name, value.sorted) :: sortedMembers rest

end

/-- The value of a member. -/
def member? (name : String) : Json → Option Json
  | .obj members => lookupEntry name members
  | _ => none

mutual

/-- The value as a document. -/
def toDoc : Json → Doc
  | .null => .null
  | .bool b => .bool b
  | .num n => .num n
  | .str s => .text s
  | .arr items => .seq (toDocs items)
  | .obj members => .map (toDocEntries members)

def toDocs : List Json → List Doc
  | [] => []
  | item :: rest => item.toDoc :: toDocs rest

def toDocEntries : List (String × Json) → List (Doc × Doc)
  | [] => []
  | (name, value) :: rest => (.text name, value.toDoc) :: toDocEntries rest

end

mutual

/-- The value that a JSON document denotes, unless the text is malformed.  Of several members with
one name the last counts. -/
def ofDoc? : Doc → Option Json
  | .null => some .null
  | .bool b => some (.bool b)
  | .num n => some (.num n)
  | .text s => some (.str s)
  | .seq items => Json.arr <$> ofDocs? items
  | .map entries => (fun members => Json.obj (sortEntries members)) <$> ofDocEntries? entries
  | _ => none

def ofDocs? : List Doc → Option (List Json)
  | [] => some []
  | doc :: rest => do
    let first ← ofDoc? doc
    let others ← ofDocs? rest
    return first :: others

def ofDocEntries? : List (Doc × Doc) → Option (List (String × Json))
  | [] => some []
  | (.text name, value) :: rest => do
    let first ← ofDoc? value
    let others ← ofDocEntries? rest
    return (name, first) :: others
  | _ => none

end

end Json

end SqlWorkflow
