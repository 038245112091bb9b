import SqlWorkflow.Project.Index
import SqlWorkflow.Sql.Program

/-!
# Core libraries

A project may name the version of the core library that it was written against.  A core library
provides two entry points: one that turns definition files into programs, and one that lists the
files of a project.  A library that has none is served by those of the legacy library, unless a
request is strict about it.
-/

namespace SqlWorkflow

/-- The entry points of a core library. -/
inductive EntryPoints where
  | current
  /-- Entry points that know nothing of the sectioned dialect. -/
  | legacy
  deriving DecidableEq, Repr, Inhabited

namespace EntryPoints

/-- The program of a definition file. -/
def compile : EntryPoints → String → String → Except Sql.ProgramError Sql.Program
  | .current => Sql.compile
  | .legacy => Sql.compileLegacy

/-- The files that are taken for definitions. -/
def files : EntryPoints → DefinitionFiles
  | .current => .current
  | .legacy => .legacy

end EntryPoints

/-- What happens if a core library has no entry points. -/
inductive EntryPointMode where
  /-- The compile fails. -/
  | strict
  | fallbackToLegacy
  deriving DecidableEq, Repr, Inhabited

namespace EntryPointMode

/-- The name of a mode. -/
def name : EntryPointMode → String
  | .strict => "strict"
  | .fallbackToLegacy => "fallbackToLegacy"

/-- All modes. -/
def all : List EntryPointMode := [.strict, .fallbackToLegacy]

/-- Reads a mode out of a document. -/
def decode : Decoder EntryPointMode := Decode.oneOf (all.map fun mode => (mode.name, mode))

end EntryPointMode

/-- A core library. -/
structure CoreLibrary where
  version : String
  /-- Its own entry points, if it has any. -/
  own : Option EntryPoints
  deriving DecidableEq, Repr, Inhabited

/-- A core library without entry points is asked for some. -/
structure EntryPointError where
  version : String
  deriving DecidableEq, Repr, Inhabited

/-- The text of the error. -/
def EntryPointError.message (e : EntryPointError) : String :=
  "[D001] Missing or outdated core package: core library " ++ e.version ++
    " has no compiler or index generator entry point"

namespace CoreLibrary

/-- The library of this version. -/
def current : CoreLibrary := ⟨"0.1.2", some .current⟩

/-- The libraries that come with this version. -/
def bundled : List CoreLibrary := [current, ⟨"0.1.0", none⟩]

/-- The library of the version that a project declares, or else the current one. -/
def select (declared : Option String) : CoreLibrary :=
  match declared with
  | none => current
  | some version => (bundled.find? fun library => library.version == version).getD current

/-- The entry points to compile with. -/
def entryPoints (library : CoreLibrary) (mode : EntryPointMode) (forceLegacy : Bool) :
    Except EntryPointError EntryPoints :=
  if forceLegacy then .ok .legacy
  else
    match library.own, mode with
    | some points, _ => .ok points
    | none, .fallbackToLegacy => .ok .legacy
    | none, .strict => .error ⟨library.version⟩

end CoreLibrary

end SqlWorkflow
