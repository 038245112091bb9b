import SqlWorkflow.CommandLine.Run

/-!
# The program

Takes from the machine's disk what a command reads, runs the command on it, and writes what it
leaves behind.
-/

namespace SqlWorkflow.CommandLine

/-- The tree at a path of the machine, with links replaced by what they lead to.  A folder inside of
itself, by way of a link, is left empty, and what cannot be opened is left out. -/
partial def readTree (around : List String) (path : String) : IO FileTree := do
  let place ← IO.FS.realPath path
  if ← place.isDir then
    if around.contains place.toString then return .empty
    let entries ← place.readDir
    let entries ← entries.toList.filterMapM fun entry => do
      try
        let tree ← readTree (place.toString :: around) entry.path.toString
        return some (entry.fileName, tree)
      catch _ => return none
    return .folder entries
  else
    match String.fromUTF8? (← IO.FS.readBinFile place) with
    | some text => return .file (.text text)
    | none => return .file .binary

/-- The places that a path passes, the one to which it leads being the last. -/
def passed (d : Disk) (path : String) : List (List String) :=
  let (start, segments) := d.start path
  let next (place : List String) (segment : String) : List String :=
    if segment = "" ∨ segment = "." then place
    else if segment = ".." then place.dropLast
    else place ++ [segment]
  (List.range (segments.length + 1)).map fun n => (segments.take n).foldl next start

/-- The disk with the folders that a path passes and everything to which it leads. -/
def addPath (d : Disk) (path : String) : IO Disk := do
  let places := passed d path
  let mut root := d.root
  for place in places do
    let found ← IO.FS.realPath (Disk.pathOf place) |>.toBaseIO
    if let .ok found := found then
      if ← found.isDir then root := root.putFolder place
      else root := root.putFile place .binary
  let last := places.getLast?.getD []
  try
    let tree ← readTree [] (Disk.pathOf last)
    return { d with root := root.alter (fun _ => tree) last }
  catch _ => return { d with root }

end SqlWorkflow.CommandLine

open SqlWorkflow CommandLine in
/-- Runs the program. -/
def main (args : List String) : IO UInt32 := do
  let folder ← IO.getEnv "DATAFORGE_PROJECT_DIR"
  let here := (Path.segments (← IO.currentDir).toString).filter (· ≠ "")
  let mut disk : Disk := { workingFolder := here }
  let mut stdin := ""
  if let .ok command := Command.ofArguments folder args then
    if let .worker := command.action then
      stdin ← (← IO.getStdin).readToEnd
    for path in command.reads stdin do
      disk ← addPath disk path
  let outcome := run disk folder stdin args
  IO.print outcome.stdout
  IO.eprint outcome.stderr
  return outcome.exit.toUInt32
