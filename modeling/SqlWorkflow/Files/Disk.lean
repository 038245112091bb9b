import SqlWorkflow.Files.Tree
import SqlWorkflow.Path

/-!
# Disks

A disk is a tree of files with a working folder, from which relative paths start.  A path is
followed segment by segment: an empty segment and `.` stay where they are, `..` goes back to the
folder around, and only a folder can be gone through.
-/

namespace SqlWorkflow

/-- Why a path cannot be followed, or what it leads to cannot be read. -/
inductive AccessError where
  | missing
  /-- The path goes through a file. -/
  | notFolder
  /-- A folder holds no text. -/
  | isFolder
  | notText
  /-- The path holds a character that no name can hold. -/
  | badPath
  deriving DecidableEq, Repr, Inhabited

/-- The wording of a failed access. -/
def AccessError.message : AccessError → String
  | .missing => "No such file or directory (os error 2)"
  | .notFolder => "Not a directory (os error 20)"
  | .isFolder => "Is a directory (os error 21)"
  | .notText => "stream did not contain valid UTF-8"
  | .badPath => "file name contained an unexpected NUL byte"

/-- A tree of files with a working folder. -/
structure Disk where
  root : FileTree := .empty
  /-- The names that lead from the root to the working folder. -/
  workingFolder : List String := []
  deriving Repr, Inhabited

namespace Disk

/-- Goes one segment on from the place to which some names lead. -/
def step (d : Disk) (place : List String) (segment : String) : Except AccessError (List String) :=
  match d.root.at? place with
  | none => .error .missing
  | some (.file _) => .error .notFolder
  | some (.folder entries) =>
    if segment = "" ∨ segment = "." then .ok place
    else if segment = ".." then .ok place.dropLast
    else if (lookupEntry segment entries).isSome then .ok (place ++ [segment])
    else .error .missing

/-- Goes some segments on. -/
def walk (d : Disk) (place : List String) (segments : List String) :
    Except AccessError (List String) :=
  segments.foldlM d.step place

/-- The names that lead to where a path starts, and the segments that are followed from there. -/
def start (d : Disk) (path : String) : List String × List String :=
  match Path.segments path with
  | "" :: segments => ([], segments)
  | segments => (d.workingFolder, segments)

/-- The names that lead from the root to where a path leads. -/
def locate (d : Disk) (path : String) : Except AccessError (List String) :=
  if path.isEmpty then .error .missing
  else if path.toList.contains '\x00' then .error .badPath
  else d.walk (d.start path).1 (d.start path).2

/-- What a path leads to. -/
def find (d : Disk) (path : String) : Except AccessError FileTree := do
  match d.root.at? (← d.locate path) with
  | some t => return t
  | none => throw .missing

/-- Does the path lead to a file? -/
def isFile (d : Disk) (path : String) : Bool :=
  match d.find path with
  | .ok t => t.isFile
  | .error _ => false

/-- The text of the file to which a path leads. -/
def read (d : Disk) (path : String) : Except AccessError String := do
  match ← d.find path with
  | .file (.text s) => return s
  | .file .binary => throw .notText
  | .folder _ => throw .isFolder

/-- The path that leads from the root to a place. -/
def pathOf (place : List String) : String := "/" ++ Text.join "/" place

end Disk

end SqlWorkflow
