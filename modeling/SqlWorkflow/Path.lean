import SqlWorkflow.Text.Split

/-!
# Project paths

A path inside a project is a text whose segments are separated by `/`.  The functions below look
only at the text, never at a file.
-/

namespace SqlWorkflow.Path

/-- The path with `\` read as a separator too. -/
def normalize (path : String) : String :=
  String.ofList (Text.replaceChar '\\' ['/'] path.toList)

/-- The segments of a path, empty ones included. -/
def segments (path : String) : List String := Text.split '/' path

/-- The last segment. -/
def fileName (path : String) : String := (segments path).getLast?.getD ""

/-- Everything before the last separator; empty if there is none. -/
def dirName (path : String) : String := Text.join "/" (segments path).dropLast

/-- The file name up to its first dot. -/
def baseName (path : String) : String := (Text.split '.' (fileName path)).head?.getD ""

/-- The file name after its last dot; empty if there is none. -/
def extension (path : String) : String :=
  match Text.split '.' (fileName path) with
  | [_] => ""
  | parts => parts.getLast?.getD ""

/-- Does the segment lead to another place than where it starts? -/
def isProper (segment : String) : Bool := segment != "" && segment != "."

/-- What a path consists of: its first segment, which tells where the path starts, and the segments
that lead further. -/
def components (path : String) : List String :=
  match segments path with
  | [] | [""] => []
  | first :: rest => first :: rest.filter isProper

/-- What is left of a path after another one, both of them in parts. -/
def after? : List String → List String → Option (List String)
  | [], path => some (path.dropWhile (· == "."))
  | part :: folder, segment :: path =>
    if segment = part then after? folder path
    else if segment = "." then after? (part :: folder) path
    else none
  | _ :: _, [] => none

/-- Two paths one after the other, without empty segments and `.` segments. -/
def join (base relative : String) : String :=
  Text.join "/" ((segments base ++ segments relative).filter isProper)

/-- A path inside of a folder, without looking at the segments of either. -/
def append (folder relative : String) : String :=
  if folder.isEmpty || folder.toList.getLast? = some '/' then folder ++ relative
  else folder ++ "/" ++ relative

/-- A name without the characters that a variable must not have. -/
def variableName (name : String) : String :=
  String.ofList (name.toList.filter fun c => c != '-' && c != '@' && c != '/')

/-- May the text be put before or after a generated name? -/
def isValidAffix (affix : String) : Bool :=
  affix.toList.all fun c => c.isAlphanum || c == '_'

end SqlWorkflow.Path
