import SqlWorkflow.Files.Pattern
import SqlWorkflow.Project.Folder

/-!
# The files of a project

A project consists of includes and definitions.  They are found by patterns, or named one by one.
Either way each list stands in the order of the paths and holds no path twice, so that it does not
depend on the disk in which order files are evaluated.
-/

namespace SqlWorkflow

/-- The paths of a project's files, in the order of their evaluation. -/
structure ProjectIndex where
  includes : List String := []
  definitions : List String := []
  deriving DecidableEq, Repr, Inhabited

/-- The number of files. -/
def ProjectIndex.count (index : ProjectIndex) : Nat :=
  index.includes.length + index.definitions.length

/-- A pattern that cannot be read. -/
structure PatternError where
  pattern : String
  deriving DecidableEq, Repr, Inhabited

/-- The text of the error. -/
def PatternError.message (e : PatternError) : String :=
  "[D003] Invalid file pattern '" ++ e.pattern ++ "': <syntax>"

/-- Paths in their order, each once. -/
def orderedPaths (paths : List String) : List String :=
  (Dict.ofList (paths.map fun path => (path, ()))).keys

/-- A path without `./` at its start. -/
def withoutHere : List Char → List Char
  | '.' :: '/' :: rest => withoutHere rest
  | cs => cs

/-! ## §1 Discovery -/

namespace ProjectFolder

/-- The folder in which files are looked for: `\` in the path of the project is read as a separator
too. -/
def searchedFolder (p : ProjectFolder) : String :=
  String.ofList (Text.trimEnd (· == '/') (Path.normalize p.path).toList)

/-- The pattern of what a pattern means in that folder. -/
def fullPattern (p : ProjectFolder) (pattern : String) : String :=
  String.ofList (NameToken.escape p.searchedFolder.toList) ++ "/" ++ pattern

/-- The path of a spot in parts.  The working folder is not named in it. -/
def pathTo (spot : Spot) : List String :=
  match spot.segments with
  | "" :: rest => "" :: rest.filter (· != "")
  | segments => (segments.dropWhile (· == ".")).filter (· != "")

/-- The path of a spot, as the index lists it: from the folder of the project on, or as a whole if
it does not start with the folder's path. -/
def relativePath (p : ProjectFolder) (spot : Spot) : String :=
  let path := pathTo spot
  let relative := (Path.after? (Path.components p.path) path).getD path
  String.ofList (withoutHere (Path.normalize (Text.join "/" relative)).toList)

/-- Does a pattern mean folders only?  It does if it ends where a name would start. -/
def isForFolders (pattern : String) : Bool := (Path.segments pattern).getLast? == some ""

/-- The paths of the files to which a pattern leads.  Every folder of a disk can be listed, so
nothing fails on the way. -/
def filesMatching (p : ProjectFolder) (pattern : String) : Except PatternError (List String) :=
  let full := p.fullPattern pattern
  match SegmentPattern.readAll full with
  | none => .error ⟨pattern⟩
  | some segments =>
    if isForFolders pattern then .ok []
    else
      let start : Spot := { segments := [], place := (p.disk.start full).1 }
      let spots := SegmentPattern.expand p.disk segments start
      .ok ((spots.filter fun spot => (spot.tree p.disk).isFile).map p.relativePath)

/-- The paths of the files to which any of the patterns leads. -/
def discover (p : ProjectFolder) (patterns : List String) : Except PatternError (List String) := do
  let found ← patterns.mapM p.filesMatching
  return orderedPaths found.flatten

end ProjectFolder

/-! ## §2 The index -/

/-- The files that a core library takes for definitions. -/
inductive DefinitionFiles where
  | current
  /-- Without files of the sectioned dialect. -/
  | legacy
  deriving DecidableEq, Repr, Inhabited

namespace DefinitionFiles

/-- The extensions of definitions. -/
def extensions : DefinitionFiles → List String
  | .current => ["jinja", "sql", "sqlx"]
  | .legacy => ["jinja", "sql"]

/-- The patterns of definitions, which are in either of two folders. -/
def patterns (files : DefinitionFiles) : List String :=
  ["definitions", "models"].flatMap fun folder =>
    files.extensions.map fun extension => folder ++ "/**/*." ++ extension

end DefinitionFiles

namespace ProjectIndex

/-- The patterns of includes. -/
def includePatterns : List String := ["includes/*.jinja"]

/-- The form in which the index lists a path that was given. -/
def given (path : String) : String := Path.normalize (String.ofList (withoutHere path.toList))

/-- Is it the path of an include? -/
def isInclude (path : String) : Bool :=
  "includes/".toList.isPrefixOf path.toList && Path.extension path == "jinja"

/-- The index of some paths; those of other files are left out. -/
def ofPaths (files : DefinitionFiles) (paths : List String) : ProjectIndex :=
  let paths := paths.map given
  { includes := orderedPaths (paths.filter isInclude)
    definitions := orderedPaths (paths.filter fun path =>
      !isInclude path && files.extensions.contains (Path.extension path)) }

/-- The index of a project: of the paths that are given, or else of all files found. -/
def generate (files : DefinitionFiles) (p : ProjectFolder) (paths : Option (List String)) :
    Except PatternError ProjectIndex :=
  match paths with
  | some paths => .ok (ofPaths files paths)
  | none => do
    let includes ← p.discover includePatterns
    let definitions ← p.discover files.patterns
    return { includes, definitions }

end ProjectIndex

end SqlWorkflow
