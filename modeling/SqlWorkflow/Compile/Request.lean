import SqlWorkflow.Evaluation.Binding
import SqlWorkflow.Project.CoreLibrary

/-!
# Requests

A request to compile names a project and says what is different from the project's own settings.
It is passed on as JSON text.
-/

namespace SqlWorkflow

/-- A request to compile a project. -/
structure CompileRequest where
  projectFolder : String
  /-- Replaces the project's own suffix of schemas. -/
  schemaSuffix : Option String := none
  /-- Exactly these files are evaluated instead of those that are found. -/
  filePaths : Option (List String) := none
  forceLegacy : Bool := false
  /-- What is answered instead of the graph. -/
  returnOverride : Option String := none
  vars : Dict String := ∅
  mode : EntryPointMode := .fallbackToLegacy
  policy : UnsupportedPolicy := .warn
  /-- The steps that each file may take; 0 stands for no limit. -/
  fuel : Option Nat := none
  deriving DecidableEq, Repr, Inhabited

namespace CompileRequest

/-- The request as JSON. -/
def toJson (r : CompileRequest) : Json :=
  Json.present
    [ ("projectDir", some (.str r.projectFolder)),
      ("schemaSuffixOverride", r.schemaSuffix.map .str),
      ("filePaths", r.filePaths.map .strings),
      ("useLegacyEntryPoints", some (.bool r.forceLegacy)),
      ("returnOverride", r.returnOverride.map .str),
      ("vars", ProjectConfig.textsUnlessEmpty r.vars),
      ("entryPointMode", some (.str r.mode.name)),
      ("unsupportedCapabilities", some (.str r.policy.name)),
      ("fuel", r.fuel.map Json.nat) ]

/-- The fields of a request in a document. -/
def shape : Decode.Shape CompileRequest where
  title := "struct CompileRequest"
  fields :=
    [ (Decode.field "projectDir" Decode.string fun v r =>
        { r with projectFolder := v }).mandatory,
      Decode.field "schemaSuffixOverride" (Decode.option Decode.string)
        fun v r => { r with schemaSuffix := v },
      Decode.field "filePaths" (Decode.option (Decode.list Decode.string))
        fun v r => { r with filePaths := v },
      Decode.field "useLegacyEntryPoints" Decode.bool fun v r => { r with forceLegacy := v },
      Decode.field "returnOverride" (Decode.option Decode.string)
        fun v r => { r with returnOverride := v },
      Decode.field "vars" (Decode.dict Decode.string) fun v r => { r with vars := v },
      Decode.field "entryPointMode" EntryPointMode.decode fun v r => { r with mode := v },
      Decode.field "unsupportedCapabilities" UnsupportedPolicy.decode
        fun v r => { r with policy := v },
      Decode.field "fuel" (Decode.option (Decode.natural 64)) fun v r => { r with fuel := v } ]

/-- Reads a request. -/
def decode : Decoder CompileRequest := shape.decode { projectFolder := "" }

/-- The text by which a request is passed on. -/
def encode (r : CompileRequest) : String := r.toJson.compact

/-- The request that a text holds. -/
def ofText (text : String) : Except DecodeError CompileRequest :=
  Decode.whole decode .jsonText (Json.read text)

end CompileRequest

end SqlWorkflow
