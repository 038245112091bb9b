import SqlWorkflow.Dict

/-!
# Trees of files

A folder holds files and further folders under names.  A tree is looked up by the names that lead
from its top to one of its parts.
-/

namespace SqlWorkflow

/-- What a file holds. -/
inductive Contents where
  | text (s : String)
  /-- Bytes that are no text. -/
  | binary
  deriving DecidableEq, Repr, Inhabited

/-- A file, or a folder with everything in it. -/
inductive FileTree where
  | file (contents : Contents)
  | folder (entries : List (String × FileTree))
  deriving Repr, Inhabited

namespace FileTree

/-- An empty folder. -/
def empty : FileTree := .folder []

/-- Is it a file? -/
def isFile : FileTree → Bool
  | .file _ => true
  | .folder _ => false

/-- Is it a folder? -/
def isFolder : FileTree → Bool
  | .file _ => false
  | .folder _ => true

/-- What a folder holds directly. -/
def entries : FileTree → List (String × FileTree)
  | .file _ => []
  | .folder entries => entries

/-- What a folder holds under a name. -/
def child? (t : FileTree) (name : String) : Option FileTree := lookupEntry name t.entries

/-- The part to which some names lead. -/
def at? : List String → FileTree → Option FileTree
  | [], t => some t
  | name :: names, t => (t.child? name).bind (at? names)

mutual

/-- Everything inside of a folder, each with the names that lead there. -/
def inside : FileTree → List (List String × FileTree)
  | .file _ => []
  | .folder entries => insideEntries entries

def insideEntries : List (String × FileTree) → List (List String × FileTree)
  | [] => []
  | (name, t) :: rest =>
    ([name], t) :: t.inside.map (fun (names, inner) => (name :: names, inner)) ++
      insideEntries rest

end

/-! ## §1 Building trees -/

/-- The entries with the tree under a name set. -/
def setEntry (name : String) (t : FileTree) : List (String × FileTree) → List (String × FileTree)
  | [] => [(name, t)]
  | (other, u) :: rest =>
    if other = name then (name, t) :: rest else (other, u) :: setEntry name t rest

/-- The tree with the part to which some names lead changed.  Folders on the way are made. -/
def alter (change : FileTree → FileTree) : List String → FileTree → FileTree
  | [], t => change t
  | name :: names, t =>
    .folder (setEntry name (alter change names ((t.child? name).getD empty)) t.entries)

/-- The tree with a file. -/
def putFile (names : List String) (contents : Contents) (t : FileTree) : FileTree :=
  alter (fun _ => .file contents) names t

/-- The tree with a folder, which is empty unless there was one. -/
def putFolder (names : List String) (t : FileTree) : FileTree :=
  alter (fun t => if t.isFolder then t else empty) names t

end FileTree

end SqlWorkflow
