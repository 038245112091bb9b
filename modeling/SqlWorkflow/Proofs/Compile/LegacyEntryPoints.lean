import SqlWorkflow.Compile.Basic
import SqlWorkflow.Proofs.Project.Discovery

/-!
# Legacy entry points

The legacy entry points know nothing of the sectioned dialect.  Apart from that they agree with the
current ones: to compile a project with them is to compile it with the current ones and the
discovered files that are not of the sectioned dialect (`compile_legacyEntryPoints`).  That is so
where discovery looks into the project's own folder, which it does not if a `\` in the path of the
project leads it elsewhere (`compile_legacyEntryPoints_elsewhere`).

- **§1** On files of other dialects the entry points are the same.
- **§2** So they are on the files of a discovery that finds no others.
-/

namespace SqlWorkflow

open Evaluation (Evaluator)

/-! ## §1 Files of other dialects -/

section Files

variable {path : String}

theorem EntryPoints.compile_legacy (h : Sql.hasEnding ".sqlx" path = false) (source : String) :
    EntryPoints.legacy.compile path source = EntryPoints.current.compile path source := by
  show Sql.compileLegacy path source = Sql.compile path source
  unfold Sql.compileLegacy
  exact if_neg (by simp [h])

theorem Evaluation.Evaluator.evaluateFile_legacy (h : Sql.hasEnding ".sqlx" path = false)
    (e : Evaluator) : e.evaluateFile .legacy path = e.evaluateFile .current path := by
  unfold evaluateFile
  refine bind_congr_ok fun source _ => congrArg (· >>= _) ?_
  exact congrArg _ (EntryPoints.compile_legacy h source)

theorem Evaluation.Evaluator.addDefinition_legacy (h : Sql.hasEnding ".sqlx" path = false)
    (e : Evaluator) (s : Session) :
    e.addDefinition .legacy s path = e.addDefinition .current s path := by
  unfold addDefinition
  rw [evaluateFile_legacy h]

/-- Without files of the sectioned dialect both entry points give the same session. -/
theorem Evaluation.Evaluator.evaluateIndex_legacy {index : ProjectIndex}
    (h : ∀ path ∈ index.definitions, Sql.hasEnding ".sqlx" path = false) (e : Evaluator)
    (s : Session) : e.evaluateIndex .legacy index s = e.evaluateIndex .current index s := by
  simp only [evaluateIndex]
  exact List.foldl_ext _ _ _ fun s path hpath => addDefinition_legacy (h path hpath) _ s

end Files

/-! ## §2 Requests -/

theorem ProjectConfig.coreVersion_override {config config' : ProjectConfig} {o : Overrides}
    (h : config.override o = .ok config') : config'.coreVersion = config.coreVersion := by
  unfold ProjectConfig.override at h
  split at h
  · cases h
    rfl
  · split at h
    · cases h
    · cases h
      rfl

/-- Only one of the bundled libraries has no entry points. -/
theorem CoreLibrary.own_select {declared : Option String} (h : declared ≠ some "0.1.0") :
    (CoreLibrary.select declared).own = some .current := by
  cases declared with
  | none => rfl
  | some version =>
    rw [select]
    cases hfound : bundled.find? fun library => library.version == version with
    | none => rfl
    | some library =>
      have hversion : library.version = version := by simpa using List.find?_some hfound
      rcases List.mem_pair.1 (List.mem_of_find?_eq_some hfound) with rfl | rfl
      · rfl
      · exact absurd (congrArg some hversion.symm) h

theorem CoreLibrary.entryPoints_current {library : CoreLibrary} (h : library.own = some .current)
    (mode : EntryPointMode) : library.entryPoints mode false = .ok .current := by
  simp [entryPoints, h]

namespace CompileRequest

variable {r : CompileRequest} {disk : Disk} {p : ProjectFolder} {index : ProjectIndex}

/-- The path of a project leads from the root on. -/
theorem exists_path_of_project (h : r.project disk = .ok p) :
    ∃ place, p.path = Disk.pathOf place := by
  obtain ⟨place, -, h⟩ := exists_of_bind_eq_ok h
  split at h
  · cases h
    exact ⟨place, rfl⟩
  · cases h

/-- A project is compiled with the legacy entry points as it is with the current ones when the
paths of its index are given but for those of the sectioned dialect. -/
theorem compile_legacyEntryPoints (hproject : r.project disk = .ok p)
    (hversion : ∀ config, p.config = .ok config → config.coreVersion ≠ some "0.1.0")
    (hindex : ProjectIndex.generate .current p none = .ok index) (hpaths : r.filePaths = none)
    (hslashes : '\\' ∉ p.path.toList) :
    let legacy := { r with forceLegacy := true }
    let current :=
      { r with
        forceLegacy := false
        filePaths := some ((index.includes ++ index.definitions).filter fun path =>
          !Sql.hasEnding ".sqlx" path) }
    legacy.compile disk = current.compile disk ∧
      CompileResponse.ofRequest disk legacy = CompileResponse.ofRequest disk current := by
  intro legacy current
  have hplain : Path.IsPlain p.path := by
    obtain ⟨place, hplace⟩ := exists_path_of_project hproject
    rw [hplace] at hslashes ⊢
    exact Path.isPlain_pathOf hslashes
  have hlegacy := ProjectIndex.ofPaths_discovered hplain hindex
  have hcompile : legacy.compile disk = current.compile disk := by
    refine bind_congr_ok fun project hp => ?_
    cases hproject.symm.trans hp
    refine bind_congr_ok fun config hconfig => bind_congr_ok fun config' hconfig' =>
      bind_congr_ok fun _ _ => ?_
    -- The request changes settings, but not the version that the project declares.
    have hdeclared : config'.coreVersion ≠ some "0.1.0" := by
      rw [ProjectConfig.coreVersion_override (eq_ok_of_mapError_eq_ok hconfig')]
      exact hversion config (eq_ok_of_mapError_eq_ok hconfig)
    have hpoints := CoreLibrary.entryPoints_current (CoreLibrary.own_select hdeclared) r.mode
    show ((ProjectIndex.generate .legacy p r.filePaths).mapError CompileError.pattern >>= _) =
      ((CoreLibrary.entryPoints _ r.mode false).mapError CompileError.entryPoints >>= _)
    rw [hpoints, hpaths, hlegacy]
    -- Both compile the same index from here on, each with its entry points.
    exact congrArg (fun s : Session => Except.ok s.compile)
      (Evaluator.evaluateIndex_legacy
        (ProjectIndex.hasEnding_of_generate_legacy hplain hlegacy) _ _)
  refine ⟨hcompile, ?_⟩
  rw [CompileResponse.ofRequest, CompileResponse.ofRequest, hcompile]

/-- A project with an include and files of both dialects in both folders. -/
theorem compile_legacyEntryPoints_mixed :
    let settings := FileTree.file (.text "defaultProject: p\ndataformCoreVersion: 0.1.2\n")
    let script := FileTree.file (.text "\x7b% macro m() %\x7d\x7b% endmacro %\x7d")
    let query := FileTree.file (.text "select 1")
    let disk : Disk :=
      { root := .folder
          [ ("workflow_settings.yaml", settings), ("includes", .folder [("i.jinja", script)]),
            ("definitions", .folder [("a.sqlx", query), ("b", .folder [("c.sql", query)])]),
            ("models", .folder [("d.sqlx", query), ("e.jinja", script), ("f.txt", query)]) ] }
    let r : CompileRequest := { projectFolder := "/" }
    ({ r with forceLegacy := true }).compile disk =
      ({ r with
          filePaths := some ["includes/i.jinja", "definitions/b/c.sql", "models/e.jinja"] }).compile
        disk := by
  intro settings script query disk r
  have hlocate : disk.locate r.projectFolder = .ok [] := by decide +kernel
  have hproject : r.project disk = .ok { disk, path := "/" } := by
    rw [project, hlocate]
    rfl
  have hindex : ProjectIndex.generate .current { disk, path := "/" } none = .ok
      { includes := ["includes/i.jinja"]
        definitions :=
          ["definitions/a.sqlx", "definitions/b/c.sql", "models/d.sqlx", "models/e.jinja"] } := by
    decide +kernel
  have hconfig : ((ProjectFolder.mk disk "/").config.toOption.map (·.coreVersion)) =
      some (some "0.1.2") := by decide +kernel
  have hversion : ∀ config, (ProjectFolder.mk disk "/").config = .ok config →
      config.coreVersion ≠ some "0.1.0" := by
    intro config h
    rw [h] at hconfig
    have hdeclared : config.coreVersion = some "0.1.2" := Option.some.inj hconfig
    rw [hdeclared]
    decide
  exact (compile_legacyEntryPoints hproject hversion hindex rfl (by decide)).1

/-- Beside a project whose path holds `\` there may be a folder that the path names when `\` is read
as a separator.  Its files are listed by paths from the root on, which are of an include if they
were found as one, but of a definition if they are given. -/
theorem compile_legacyEntryPoints_elsewhere :
    let settings := FileTree.file (.text "dataformCoreVersion: 0.1.2\n")
    let script := FileTree.file (.text "\x7b% macro m() %\x7d\x7b% endmacro %\x7d")
    let query := FileTree.file (.text "select 1 as id")
    let disk : Disk :=
      { root := .folder
          [ ("wo\\rk", .folder [("workflow_settings.yaml", settings)]),
            ("wo", .folder
              [ ("rk", .folder
                  [ ("includes", .folder [("x.jinja", script)]),
                    ("definitions", .folder [("a.sql", query)]) ]) ]) ] }
    let r : CompileRequest := { projectFolder := "/wo\\rk" }
    let p : ProjectFolder := { disk, path := "/wo\\rk" }
    let index : ProjectIndex :=
      { includes := ["/wo/rk/includes/x.jinja"], definitions := ["/wo/rk/definitions/a.sql"] }
    r.project disk = .ok p ∧
      (∀ config, p.config = .ok config → config.coreVersion ≠ some "0.1.0") ∧
      ProjectIndex.generate .current p none = .ok index ∧
      ({ r with forceLegacy := true }).compile disk ≠
        ({ r with
            filePaths := some ((index.includes ++ index.definitions).filter fun path =>
              !Sql.hasEnding ".sqlx" path) }).compile disk := by
  intro settings script query disk r p index
  have hlocate : disk.locate r.projectFolder = .ok ["wo\\rk"] := by decide +kernel
  have hconfig : (p.config.toOption.map (·.coreVersion)) = some (some "0.1.2") := by decide +kernel
  refine ⟨?_, ?_, by decide +kernel, ?_⟩
  · rw [project, hlocate]
    rfl
  · intro config h
    rw [h] at hconfig
    have hdeclared : config.coreVersion = some "0.1.2" := Option.some.inj hconfig
    rw [hdeclared]
    decide
  · -- The errors of files stand in the order of their evaluation.
    intro h
    have hfailed := congrArg (fun result => result.toOption.map fun graph =>
      graph.graphErrors.compilationErrors.map (·.fileName)) h
    exact absurd hfailed (by decide +kernel)

end CompileRequest

end SqlWorkflow
