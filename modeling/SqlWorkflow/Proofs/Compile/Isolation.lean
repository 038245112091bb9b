import SqlWorkflow.Compile.Basic

/-!
# A failing file and the other files of its project

- **§1** What the evaluation of one file adds to a session is a `Report`, and a session that takes
  in several reports is the session with their concatenation (`foldl_takeReport`).
- **§2** An include reports the same whichever includes were imported before it, so evaluating the
  files of a project adds a report for every file, in the order in which they are evaluated
  (`evaluateIndex_eq`).
- **§3** A definition that fails reports one error and nothing else, so without it the session
  lacks that error and is otherwise the same (`evaluateIndex_of_failing`).
-/

namespace SqlWorkflow

open Evaluation (Evaluator FileOutput)

/-! ## §1 Reports -/

/-- What the evaluation of a file adds to a session. -/
structure Report where
  registrations : List Registration := []
  tests : List UnitTest := []
  compilationErrors : List FileMessage := []
  warnings : List FileMessage := []

namespace Report

/-- What a file adds: all that it gives or, if it fails, one error. -/
def ofOutcome (path : String) : Except FileError FileOutput → Report
  | .ok output =>
    { registrations := output.registrations
      tests := output.tests
      warnings := output.warnings.map (⟨path, ·⟩) }
  | .error error => { compilationErrors := [⟨path, error.message⟩] }

end Report

namespace Session

/-- The session with what some files add, one after the other. -/
def takeReports (s : Session) (reports : List Report) : Session :=
  { s with
    registrations := s.registrations ++ reports.flatMap (·.registrations)
    tests := s.tests ++ reports.flatMap (·.tests)
    compilationErrors := s.compilationErrors ++ reports.flatMap (·.compilationErrors)
    warnings := s.warnings ++ reports.flatMap (·.warnings) }

/-- Nothing is added by no file. -/
@[simp]
theorem takeReports_nil (s : Session) : s.takeReports [] = s := by
  simp [takeReports]

theorem takeReports_append (s : Session) (first second : List Report) :
    s.takeReports (first ++ second) = (s.takeReports first).takeReports second := by
  simp [takeReports]

theorem foldl_register (s : Session) (rs : List Registration) :
    rs.foldl register s = { s with registrations := s.registrations ++ rs } := by
  induction rs generalizing s with
  | nil => simp
  | cons r rest ih => simp [ih, register]

theorem foldl_registerTest (s : Session) (ts : List UnitTest) :
    ts.foldl registerTest s = { s with tests := s.tests ++ ts } := by
  induction ts generalizing s with
  | nil => simp
  | cons t rest ih => simp [ih, registerTest]

theorem foldl_warn (s : Session) (path : String) (warnings : List String) :
    warnings.foldl (fun s warning => s.warn path warning) s =
      { s with warnings := s.warnings ++ warnings.map (⟨path, ·⟩) } := by
  induction warnings generalizing s with
  | nil => simp
  | cons w rest ih =>
    rw [List.foldl_cons, ih]
    simp [warn]

theorem takeIn_eq (s : Session) (path : String) (output : FileOutput) :
    s.takeIn path output = s.takeReports [.ofOutcome path (.ok output)] := by
  simp [takeIn, takeReports, Report.ofOutcome, foldl_register, foldl_registerTest, foldl_warn]

theorem compileError_eq (s : Session) (path : String) (error : FileError) :
    s.compileError path error.message = s.takeReports [.ofOutcome path (.error error)] := by
  simp [compileError, takeReports, Report.ofOutcome]

end Session

/-! ## §2 What the files of a project add -/

namespace Evaluation.Evaluator

variable (e : Evaluator) (points : EntryPoints)

/-- What the evaluation of an include adds: its warnings. -/
def includeReport (path : String) : Report :=
  .ofOutcome path ((e.probeFile path).map fun warnings => { warnings })

/-- What the evaluation of a definition adds. -/
def definitionReport (path : String) : Report := .ofOutcome path (e.evaluateFile points path)

/-- Can an include be imported? -/
def works (path : String) : Bool := (e.probeFile path).isOk

/-- The evaluator whose definitions also see those of some includes that work. -/
def withIncludes (includes : List String) : Evaluator :=
  { e with
    imports := e.imports ++
      (includes.filter e.works).map fun path => (Path.variableName (Path.baseName path), path) }

theorem loadTemplate_withIncludes (includes : List String) :
    (e.withIncludes includes).loadTemplate = e.loadTemplate := by
  funext path
  rfl

theorem plainEnvironment_withIncludes (includes : List String) (capturing : Bool) :
    (e.withIncludes includes).plainEnvironment capturing = e.plainEnvironment capturing := by
  unfold plainEnvironment environment
  rw [loadTemplate_withIncludes]
  rfl

/-- An include is evaluated without any imports. -/
theorem probeFile_withIncludes (includes : List String) (path : String) :
    (e.withIncludes includes).probeFile path = e.probeFile path := by
  unfold probeFile probe run
  rw [plainEnvironment_withIncludes]
  rfl

theorem works_withIncludes (includes : List String) :
    (e.withIncludes includes).works = e.works :=
  funext fun path => congrArg Except.isOk (e.probeFile_withIncludes includes path)

theorem includeReport_withIncludes (includes : List String) :
    (e.withIncludes includes).includeReport = e.includeReport := by
  funext path
  simp only [includeReport, probeFile_withIncludes]

theorem withIncludes_append (first second : List String) :
    e.withIncludes (first ++ second) = (e.withIncludes first).withIncludes second := by
  -- Whether an include works does not depend on those before it.
  rw [withIncludes.eq_def (e.withIncludes first), works_withIncludes]
  simp [withIncludes]

theorem addInclude_eq (s : Session) (path : String) :
    addInclude (s, e) path = (s.takeReports [e.includeReport path], e.withIncludes [path]) := by
  unfold addInclude includeReport withIncludes works
  cases h : e.probeFile path with
  | ok warnings =>
    simp [h, Session.foldl_warn, Session.takeReports, Report.ofOutcome, addImport, Except.map,
      Except.isOk, Except.toBool]
  | error error => simp [h, Session.compileError_eq, Except.map, Except.isOk, Except.toBool]

theorem foldl_addInclude (s : Session) (paths : List String) :
    paths.foldl addInclude (s, e) =
      (s.takeReports (paths.map e.includeReport), e.withIncludes paths) := by
  induction paths generalizing s e with
  | nil => simp [withIncludes]
  | cons path rest ih =>
    rw [List.foldl_cons, addInclude_eq, ih, includeReport_withIncludes, ← withIncludes_append,
      ← Session.takeReports_append]
    rfl

theorem addDefinition_eq (s : Session) (path : String) :
    e.addDefinition points s path = s.takeReports [e.definitionReport points path] := by
  unfold addDefinition definitionReport
  cases e.evaluateFile points path with
  | ok output => exact s.takeIn_eq path output
  | error error => exact s.compileError_eq path error

theorem foldl_addDefinition (s : Session) (paths : List String) :
    paths.foldl (e.addDefinition points) s =
      s.takeReports (paths.map (e.definitionReport points)) := by
  induction paths generalizing s with
  | nil => simp
  | cons path rest ih =>
    rw [List.foldl_cons, ih, addDefinition_eq, ← Session.takeReports_append]
    rfl

/-- Every file of a project adds its report: first the includes, then the definitions, which see
all includes that work. -/
theorem evaluateIndex_eq (index : ProjectIndex) (s : Session) :
    e.evaluateIndex points index s =
      s.takeReports (index.includes.map e.includeReport ++
        index.definitions.map ((e.withIncludes index.includes).definitionReport points)) := by
  unfold evaluateIndex
  rw [foldl_addInclude, Session.takeReports_append]
  exact foldl_addDefinition _ points _ index.definitions

/-! ## §3 A definition that fails -/

/-- A definition that fails adds one error, after those of the files before it.  Without it the
session is the same but for that error: it has no part in the actions, unit tests and warnings,
whatever it declared before it failed. -/
theorem evaluateIndex_of_failing {index : ProjectIndex} {before after : List String}
    {path : String} {error : FileError} (s : Session)
    (hdefinitions : index.definitions = before ++ path :: after)
    (hfails : (e.withIncludes index.includes).evaluateFile points path = .error error) :
    let first := e.evaluateIndex points { index with definitions := before } s
    let without := e.evaluateIndex points { index with definitions := before ++ after } s
    ∃ late, without.compilationErrors = first.compilationErrors ++ late ∧
      e.evaluateIndex points index s =
        { without with
          compilationErrors := first.compilationErrors ++ ⟨path, error.message⟩ :: late } := by
  have hreport : (e.withIncludes index.includes).definitionReport points path =
      { compilationErrors := [⟨path, error.message⟩] } := by
    rw [definitionReport, hfails, Report.ofOutcome]
  -- The late errors are those of the definitions after it, which see the same includes as before.
  refine ⟨(after.map ((e.withIncludes index.includes).definitionReport points)).flatMap
    (·.compilationErrors), ?_, ?_⟩
  · simp [evaluateIndex_eq, Session.takeReports]
  · simp [evaluateIndex_eq, hdefinitions, hreport, Session.takeReports]

/-- A project whose second script declares a table and warns before it fails. -/
theorem evaluateIndex_of_failing_script :
    let script :=
      "\x7b\x7b publish('b') \x7d\x7d\x7b\x7b warn('w') \x7d\x7d\x7b\x7b error('no') \x7d\x7d"
    let definitions : FileTree := .folder [
      ("a.sql", .file (.text "select 1")),
      ("b.jinja", .file (.text script)),
      ("c.sql", .file (.text "select * from a")) ]
    let disk : Disk := { root := .folder [("p", .folder [("definitions", definitions)])] }
    let e : Evaluator := { project := { disk, path := "/p" } }
    let index : ProjectIndex :=
      { includes := []
        definitions := ["definitions/a.sql", "definitions/b.jinja", "definitions/c.sql"] }
    let s : Session := { config := {}, coreVersion := "3.0.0" }
    let first := e.evaluateIndex .current { index with definitions := ["definitions/a.sql"] } s
    let without :=
      e.evaluateIndex .current
        { index with definitions := ["definitions/a.sql", "definitions/c.sql"] } s
    ∃ error late,
      without.compilationErrors = first.compilationErrors ++ late ∧
        e.evaluateIndex .current index s =
          { without with
            compilationErrors :=
              first.compilationErrors ++ ⟨"definitions/b.jinja", error⟩ :: late } := by
  intro script definitions disk e index s first without
  obtain ⟨error, herror⟩ :
      ∃ error, (e.withIncludes []).evaluateFile .current "definitions/b.jinja" = .error error :=
    exists_of_isOk_eq_false (by decide +kernel)
  obtain ⟨late, hwithout, hwhole⟩ :=
    evaluateIndex_of_failing e .current s
      (show index.definitions = ["definitions/a.sql"] ++ "definitions/b.jinja" ::
        ["definitions/c.sql"] from rfl) herror
  exact ⟨error.message, late, hwithout, hwhole⟩

end Evaluation.Evaluator

end SqlWorkflow
