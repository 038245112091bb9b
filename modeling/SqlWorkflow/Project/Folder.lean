import SqlWorkflow.Files.Disk
import SqlWorkflow.Project.Config

/-!
# Project folders

A project is a folder on a disk.  Its own files are named by paths relative to the folder, and no
such path leads out of it: a path that starts at the root, goes back with `..` or names a drive is
refused before any file is looked at (`resolve_eq_ok_iff`).
-/

namespace SqlWorkflow

/-- A folder that holds a project. -/
structure ProjectFolder where
  disk : Disk
  /-- The path of the folder, which is never looked at but put before the paths inside. -/
  path : String
  deriving Repr, Inhabited

/-- Why a file of a project cannot be read. -/
inductive ProjectFileError where
  /-- The path leads, or might lead, out of the project. -/
  | escapes (path : String)
  | unreadable (path : String) (e : AccessError)
  deriving DecidableEq, Repr, Inhabited

/-- The text of the error. -/
def ProjectFileError.message : ProjectFileError → String
  | .escapes path => "[J005] Path '" ++ path ++ "' escapes the project directory"
  | .unreadable path e => "Internal error: failed to read '" ++ path ++ "': " ++ e.message

namespace ProjectFolder

/-! ## §1 Files -/

/-- Does a path lead out of every folder it starts from, or might it? -/
def leadsOut (path : String) : Bool :=
  path.isEmpty || path.toList.head? = some '/' || (Path.segments path).contains ".." ||
    path.toList.contains ':'

/-- The path of a file of the project on the disk. -/
def resolve (p : ProjectFolder) (path : String) : Except ProjectFileError String :=
  let relative := Path.normalize path
  if leadsOut relative then .error (.escapes path) else .ok (Path.append p.path relative)

/-- A path is resolved exactly if it does not lead out, `\` being a separator too. -/
theorem resolve_eq_ok_iff (p : ProjectFolder) (path full : String) :
    p.resolve path = .ok full ↔
      leadsOut (Path.normalize path) = false ∧ full = Path.append p.path (Path.normalize path) := by
  unfold resolve
  dsimp only
  split
  case isTrue h => simp [h]
  case isFalse h =>
    rw [Bool.not_eq_true] at h
    rw [h, Except.ok.injEq]
    exact ⟨fun he => ⟨rfl, he.symm⟩, fun he => he.2.symm⟩

/-- The text of a file of the project; `none` if there is no such file. -/
def read (p : ProjectFolder) (path : String) : Except ProjectFileError (Option String) := do
  let full ← p.resolve path
  if p.disk.isFile full then
    match p.disk.read full with
    | .ok text => return some text
    | .error e => throw (.unreadable path e)
  else return none

end ProjectFolder

/-! ## §2 Settings -/

/-- Why the settings of a project cannot be had. -/
inductive ProjectConfigError where
  | noFile (folder : String)
  /-- There are settings files of both kinds. -/
  | twoFiles (folder : String)
  | unreadable (path : String) (e : AccessError)
  | refused (path : String) (e : SettingsError)
  deriving Repr, Inhabited

/-- The text of the error. -/
def ProjectConfigError.message : ProjectConfigError → String
  | .noFile folder =>
    "[E001] No workflow settings found in " ++ folder ++
      ": expected workflow_settings.yaml or dataform.json"
  | .twoFiles folder =>
    "[E004] Both workflow_settings.yaml and the deprecated dataform.json are present in " ++
      folder ++ ". Remove dataform.json"
  | .unreadable path e => "[E016] Failed to read '" ++ path ++ "': " ++ e.message
  | .refused path (.malformed source e) =>
    "[E002] Failed to parse " ++ path ++ ": " ++ e.message source
  | .refused _ e => e.message

namespace ProjectFolder

/-- The settings that a settings file of the project holds. -/
def configFrom (p : ProjectFolder) (path : String)
    (read : String → Except SettingsError ProjectConfig) :
    Except ProjectConfigError ProjectConfig := do
  let text ← (p.disk.read path).mapError (.unreadable path)
  (read text).mapError (.refused path)

/-- The settings of the project, which has exactly one settings file. -/
def config (p : ProjectFolder) : Except ProjectConfigError ProjectConfig :=
  let yaml := Path.append p.path "workflow_settings.yaml"
  let json := Path.append p.path "dataform.json"
  match p.disk.isFile yaml, p.disk.isFile json with
  | true, true => .error (.twoFiles p.path)
  | true, false => p.configFrom yaml ProjectConfig.ofYaml
  | false, true => p.configFrom json ProjectConfig.ofJson
  | false, false => .error (.noFile p.path)

end ProjectFolder

end SqlWorkflow
