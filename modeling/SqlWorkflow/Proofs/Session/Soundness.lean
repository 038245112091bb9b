import SqlWorkflow.Proofs.Project.Settings
import SqlWorkflow.Proofs.Session.Headers
import SqlWorkflow.Proofs.Target.Texts

/-!
# Soundness of compiled graphs

A graph without validation errors can be relied on: targets are unique and free of dots, every
dependency is an action of the graph, and no action depends on itself.

- **§1** Runs of a session: any calls in any order.
- **§2** What soundness says, in terms of the graph alone (`CompiledGraph.Sound`) and of the
  graph and a registration (`CompiledGraph.Honors`).
- **§3** Dependencies and names in a compiled graph, in terms of the session's entries.
- **§4** Affixes bring no dot into a target.
- **§5** The main statement, `compile_sound`.
-/

namespace SqlWorkflow

open Relation

/-! ## §1 Runs of a session -/

namespace Session

/-- What the files of a project can say. -/
inductive Call where
  | register (r : Registration)
  | registerTest (t : UnitTest)
  | compileError (fileName message : String)
  | warn (fileName message : String)

/-- The session after a call. -/
def perform (s : Session) : Call → Session
  | .register r => s.register r
  | .registerTest t => s.registerTest t
  | .compileError fileName message => s.compileError fileName message
  | .warn fileName message => s.warn fileName message

/-- The session after any number of calls to a new one. -/
def run (config : ProjectConfig) (coreVersion : String) (calls : List Call) : Session :=
  calls.foldl perform { config, coreVersion }

@[simp] theorem perform_config (s : Session) (call : Call) :
    (s.perform call).config = s.config := by
  cases call <;> rfl

/-- No call changes the settings. -/
theorem run_config (config : ProjectConfig) (coreVersion : String) (calls : List Call) :
    (run config coreVersion calls).config = config := by
  -- The session grows from the left, so the induction needs any session to start from.
  have key : ∀ s : Session, (calls.foldl perform s).config = s.config := by
    induction calls with
    | nil => exact fun _ => rfl
    | cons call calls ih => exact fun s => (ih _).trans (perform_config s call)
  exact key _

/-- The registrations of a session are those that it was told of. -/
theorem mem_registrations_run {config : ProjectConfig} {coreVersion : String} {calls : List Call}
    {r : Registration} :
    r ∈ (run config coreVersion calls).registrations ↔ .register r ∈ calls := by
  have key : ∀ s : Session,
      r ∈ (calls.foldl perform s).registrations ↔ r ∈ s.registrations ∨ .register r ∈ calls := by
    induction calls with
    | nil => simp
    | cons call calls ih =>
      intro s
      rw [List.foldl_cons, ih]
      cases call <;> simp [perform, register, registerTest, compileError, warn, or_assoc]
  exact (key _).trans (by simp)

end Session

/-! ## §2 What soundness says -/

/-- No part of the target holds a dot. -/
structure Target.Undotted (t : Target) : Prop where
  name : '.' ∉ t.name.toList
  schema : '.' ∉ t.schema.toList
  database : ∀ database ∈ t.database, '.' ∉ database.toList

namespace CompiledGraph

/-- The action with target `a` depends on `b`. -/
def DependsOn (g : CompiledGraph) (a b : Target) : Prop :=
  ∃ h ∈ g.headers, h.target = a ∧ b ∈ h.dependencyTargets

/-- `t` is the target of an action that a reference names: by canonical target or, if it fits no
canonical target, by its own. -/
def Names (g : CompiledGraph) (r : TargetRef) (t : Target) : Prop :=
  ∃ h ∈ g.headers, h.target = t ∧
    (r.Fits h.canonicalTarget ∨
      (∀ h' ∈ g.headers, ¬ r.Fits h'.canonicalTarget) ∧ r.Fits h.target)

/-- Soundness of a graph in itself. -/
structure Sound (g : CompiledGraph) : Prop where
  targets_nodup : g.targets.Nodup
  canonicalTargets_nodup : (g.headers.map (·.canonicalTarget)).Nodup
  dependencies_mem : ∀ h ∈ g.headers, ∀ t ∈ h.dependencyTargets, t ∈ g.targets
  parents_mem : ∀ a ∈ g.assertions, ∀ t ∈ a.parentAction, t ∈ g.targets
  acyclic : ∀ t, ¬ TransGen g.DependsOn t t
  undotted : ∀ h ∈ g.headers, h.target.Undotted ∧ h.canonicalTarget.Undotted

/-- The registration has become an action of the graph, and each of its dependencies names one
target, which is among the action's dependencies. -/
def Honors (g : CompiledGraph) (config : ProjectConfig) (r : Registration) : Prop :=
  ∃ h ∈ g.headers, h.canonicalTarget = Entry.canonicalTarget config r ∧
    h.target = Entry.runtimeTarget config r.payload.kind (Entry.canonicalTarget config r) ∧
    h.fileName = r.filePath ∧
    ∀ d ∈ r.dependencies, ∃ t ∈ h.dependencyTargets, ∀ t', g.Names d t' ↔ t' = t

end CompiledGraph

/-! ## §3 A compiled graph and the entries of its session -/

namespace Session

variable (s : Session)

/-- A graph has no validation errors exactly if nothing was found to be wrong with the entries. -/
theorem validationErrors_compile_eq_nil_iff :
    s.compile.graphErrors.validationErrors = [] ↔ findings s.entries = [] :=
  List.map_eq_nil_iff

theorem dependsOn_compile_iff {a b : Target} :
    s.compile.DependsOn a b ↔ (Entry.dag s.entries).Edge b a := by
  rw [Entry.edge_dag_iff]
  constructor
  · rintro ⟨h, hmem, rfl, hb⟩
    obtain ⟨e, he, rfl⟩ := s.mem_headers_compile.1 hmem
    exact ⟨e, he, by simpa using hb, by simp⟩
  · rintro ⟨e, he, hb, rfl⟩
    exact ⟨_, s.mem_headers_compile.2 ⟨e, he, rfl⟩, by simp, by simpa using hb⟩

theorem names_compile_iff {r : TargetRef} {t : Target} :
    s.compile.Names r t ↔ ∃ e ∈ Entry.fitting s.entries r, e.runtime = t := by
  simp only [CompiledGraph.Names, mem_headers_compile, Entry.mem_fitting_iff,
    exists_exists_and_eq_and, forall_exists_index, and_imp, forall_apply_eq_imp_iff₂,
    Entry.finishedHeader_target, Entry.finishedHeader_canonicalTarget]
  exact exists_congr fun e => by tauto

end Session

/-! ## §4 Affixes bring no dot -/

theorem Target.undotted_of_componentErrors_eq_nil {t : Target} (h : t.componentErrors = []) :
    t.Undotted := by
  have hparts := (TargetRef.componentErrors_eq_nil_iff t).1 h
  refine ⟨hparts t.name ?_, hparts t.schema ?_, fun d hd => hparts d ?_⟩
  · simp [TargetRef.parts, TargetRef.ofTarget]
  · simp [TargetRef.parts, TargetRef.ofTarget]
  · simp [TargetRef.parts, TargetRef.ofTarget, Option.mem_def.1 hd]

theorem Path.dot_not_mem_of_isValidAffix {affix : String} (h : isValidAffix affix = true) :
    '.' ∉ affix.toList := by
  intro hmem
  have := List.all_eq_true.1 h '.' hmem
  revert this
  decide

namespace ProjectConfig

theorem dot_mem_suffixed_iff {affix : Option String} {s : String}
    (haffix : ∀ a ∈ affix, Path.isValidAffix a = true) :
    '.' ∈ (suffixed affix s).toList ↔ '.' ∈ s.toList := by
  unfold suffixed
  split
  · next a =>
    have ha := Path.dot_not_mem_of_isValidAffix (haffix a rfl)
    split
    · exact Iff.rfl
    · simp [ha]
  · exact Iff.rfl

variable {config : ProjectConfig}

theorem AffixesValid.dot_mem_runtimeName_iff (h : config.AffixesValid) {name : String} :
    '.' ∈ (config.runtimeName name).toList ↔ '.' ∈ name.toList := by
  unfold runtimeName
  split
  · next p hp =>
    have hbefore := Path.dot_not_mem_of_isValidAffix (h.tablePrefix p hp)
    split
    · exact Iff.rfl
    · simp [hbefore]
  · exact Iff.rfl

/-- With usable affixes a runtime target has no dot if, and only if, the canonical one has none. -/
theorem AffixesValid.undotted_runtimeTarget_iff (h : config.AffixesValid) (kind : ActionKind)
    (t : Target) : (Entry.runtimeTarget config kind t).Undotted ↔ t.Undotted := by
  have hdatabase : (∀ d ∈ config.runtimeDatabase t.database, '.' ∉ d.toList) ↔
      ∀ d ∈ t.database, '.' ∉ d.toList := by
    simp [runtimeDatabase, dot_mem_suffixed_iff h.databaseSuffix]
  unfold Entry.runtimeTarget
  split
  · exact Iff.rfl
  · constructor
    · intro ht
      exact ⟨h.dot_mem_runtimeName_iff.not.1 ht.name,
        (dot_mem_suffixed_iff h.schemaSuffix).not.1 ht.schema, hdatabase.1 ht.database⟩
    · intro ht
      exact ⟨h.dot_mem_runtimeName_iff.not.2 ht.name,
        (dot_mem_suffixed_iff h.schemaSuffix).not.2 ht.schema, hdatabase.2 ht.database⟩

end ProjectConfig

/-! ## §5 Graphs without errors are sound -/

namespace Session

variable {s : Session}

/-- What depends on itself would have been reported. -/
theorem acyclic_compile (h : Entry.cycleFindings s.entries = []) (t : Target) :
    ¬ TransGen s.compile.DependsOn t t := by
  intro hcycle
  -- An edge leads from a dependency to what depends on it, `DependsOn` the other way.
  have hswap : s.compile.DependsOn = Function.swap (Entry.dag s.entries).Edge :=
    funext fun _ => funext fun _ => propext s.dependsOn_compile_iff
  rw [hswap, transGen_swap] at hcycle
  refine (Entry.dag_wellFormed s.entries).acyclic_of_cycles_eq_nil ?_ t hcycle
  exact Entry.cycleFindings_eq_nil_iff.1 h

/-- A dependency is the target of the entry that the reference was resolved to. -/
theorem dependency_mem_targets {e : Entry} {t : Target}
    (ht : t ∈ Entry.dependencyTargets s.entries e) : t ∈ s.compile.targets := by
  obtain ⟨r, -, i, -, d, hd, rfl⟩ := Entry.mem_dependencyTargets_iff.1 ht
  exact s.runtime_mem_targets (List.mem_of_getElem? hd)

theorem parent_mem_targets {a : Assertion} (ha : a ∈ s.compile.assertions) {t : Target}
    (ht : a.parentAction = some t) : t ∈ s.compile.targets := by
  obtain ⟨_, -, -, p, -, hp⟩ := exists_entry_of_parentAction ha ht
  obtain ⟨table, htable, rfl⟩ := Option.map_eq_some_iff.1 hp
  exact s.runtime_mem_targets (List.mem_of_getElem? htable)

/-- An entry's two targets have no dots if its canonical target was not complained about. -/
theorem undotted_of_mem_entries (haffixes : s.config.AffixesValid)
    (h : Entry.componentFindings s.entries = []) {e : Entry} (he : e ∈ s.entries) :
    e.runtime.Undotted ∧ e.canonical.Undotted := by
  have hcanonical : e.canonical.Undotted :=
    Target.undotted_of_componentErrors_eq_nil (Entry.componentFindings_eq_nil_iff.1 h e he)
  refine ⟨?_, hcanonical⟩
  -- Only canonical targets are checked; the runtime target is made from one by putting affixes on.
  rw [(Entry.named_of_mem he).runtime_eq]
  exact (haffixes.undotted_runtimeTarget_iff _ _).2 hcanonical

theorem sound_compile (haffixes : s.config.AffixesValid) (h : findings s.entries = []) :
    s.compile.Sound := by
  obtain ⟨-, hcomponents, hduplicates, -, hcycles, -⟩ := Entry.findings_eq_nil_iff.1 h
  obtain ⟨hruntime, hcanonical⟩ := Entry.duplicateFindings_eq_nil_iff.1 hduplicates
  exact
    { targets_nodup := s.targets_compile_perm.nodup_iff.2 hruntime
      canonicalTargets_nodup := s.canonicalTargets_compile_perm.nodup_iff.2 hcanonical
      dependencies_mem := by
        intro header hheader t ht
        obtain ⟨e, -, rfl⟩ := s.mem_headers_compile.1 hheader
        rw [Entry.finishedHeader_dependencyTargets] at ht
        exact dependency_mem_targets ht
      parents_mem := fun a ha t ht => parent_mem_targets ha ht
      acyclic := acyclic_compile hcycles
      undotted := by
        intro header hheader
        obtain ⟨e, he, rfl⟩ := s.mem_headers_compile.1 hheader
        rw [Entry.finishedHeader_target, Entry.finishedHeader_canonicalTarget]
        exact undotted_of_mem_entries haffixes hcomponents he }

/-- A reference that resolves to an entry names that entry's target and no other. -/
theorem names_of_resolve_eq_found (hnodup : (s.entries.map (·.runtime)).Nodup) {r : TargetRef}
    {i : Nat} (h : Entry.resolve s.entries r = .found i) :
    ∃ d, s.entries[i]? = some d ∧ ∀ t, s.compile.Names r t ↔ t = d.runtime := by
  obtain ⟨d, hcandidates⟩ := Entry.candidates_of_resolve_eq_found hnodup h
  -- One candidate is one fitting entry.
  have hfitting : Entry.fitting s.entries r = [d] := by
    rw [← Entry.map_snd_candidates, hcandidates]
    rfl
  refine ⟨d, Entry.getElem?_of_mem_candidates (hcandidates ▸ List.mem_singleton_self _), ?_⟩
  intro t
  rw [s.names_compile_iff, hfitting]
  simp [eq_comm]

theorem honors_compile (h : findings s.entries = []) {e : Entry} (he : e ∈ s.entries) :
    s.compile.Honors s.config e.registration := by
  obtain ⟨-, -, hduplicates, hreferences, -, -⟩ := Entry.findings_eq_nil_iff.1 h
  have hnodup := (Entry.duplicateFindings_eq_nil_iff.1 hduplicates).1
  have hnamed := Entry.named_of_mem he
  refine ⟨_, s.mem_headers_compile.2 ⟨e, he, rfl⟩, ?_, ?_, ?_, fun r hr => ?_⟩
  · rw [Entry.finishedHeader_canonicalTarget, hnamed.canonical_eq]
  · rw [Entry.finishedHeader_target, hnamed.runtime_eq, hnamed.canonical_eq]
  · rw [Entry.finishedHeader_fileName]
  · obtain ⟨i, hi⟩ := Entry.referenceFindings_eq_nil_iff.1 (hreferences e he) r hr
    obtain ⟨d, hd, hnames⟩ := names_of_resolve_eq_found hnodup hi
    refine ⟨d.runtime, ?_, hnames⟩
    rw [Entry.finishedHeader_dependencyTargets]
    exact Entry.mem_dependencyTargets_iff.2 ⟨r, hr, i, hi, d, hd, rfl⟩

/-- Whatever settings a project has and whatever its files say: if the compiled graph has no
validation errors, it is sound and honors every registration, those of generated assertions
included. -/
theorem compile_sound {config : ProjectConfig} (hconfig : config.Accepted) (coreVersion : String)
    (calls : List Call)
    (h : (run config coreVersion calls).compile.graphErrors.validationErrors = []) :
    (run config coreVersion calls).compile.Sound ∧
      (∀ r, .register r ∈ calls → (run config coreVersion calls).compile.Honors config r) ∧
      ∀ e ∈ (run config coreVersion calls).entries,
        (run config coreVersion calls).compile.Honors config e.registration := by
  have hfindings := (validationErrors_compile_eq_nil_iff _).1 h
  -- The settings of the run are those that it began with.
  have hhonors := @honors_compile (run config coreVersion calls) hfindings
  rw [run_config] at hhonors
  refine ⟨sound_compile ?_ hfindings, fun r hr => ?_, fun e he => hhonors he⟩
  · rw [run_config]
    exact hconfig.affixesValid
  · exact hhonors (Entry.ofRegistration_mem (mem_registrations_run.2 hr))

/-- A table with a generated assertion and an operation that depends on the table, in a project
whose schemas get a suffix. -/
theorem compile_sound_pipeline :
    let calls : List Call :=
      [ .register
          { filePath := "clean.sqlx", name := "clean", dependencies := [.named "orders"]
            payload := .operation ["DELETE FROM orders"] true },
        .warn "orders.sqlx" "no description",
        .register
          { filePath := "orders.sqlx", name := "orders"
            payload := .table { query := "SELECT 1 AS id", assertions := { nonNull := ["id"] } } } ]
    let s := run { schemaSuffix := some "dev" } "3.0.0" calls
    s.compile.graphErrors.validationErrors = [] ∧ s.compile.actionCount = 3 ∧ s.compile.Sound := by
  intro calls s
  have hyaml : ProjectConfig.ofYaml "" = .ok {} := rfl
  have hoverride : ({} : ProjectConfig).override { schemaSuffix := some "dev" } =
      .ok { schemaSuffix := some "dev" } := rfl
  have herrors : s.compile.graphErrors.validationErrors = [] := by decide +kernel
  refine ⟨herrors, by decide +kernel, ?_⟩
  exact (compile_sound (.override (.ofYaml hyaml) hoverride) "3.0.0" calls herrors).1

end Session

end SqlWorkflow
