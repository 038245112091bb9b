import SqlWorkflow.Compile.Basic
import SqlWorkflow.Proofs.Files.Walks

/-!
# Projects see nothing outside of their folder

A name of a file is resolved to the folder of the project with a path after it, and the path neither
starts at the root nor goes back.  So the resolved path leads to the folder or to something below
it, by its text alone (`inside_of_resolve_eq_ok`) and on any disk (`isPrefix_of_resolve_eq_ok`).
Since includes, definitions, embedded templates and notebooks are all read by such names, what their
evaluation gives depends on the folder only (`confined`).

- **§1** Where paths lead by their text.
- **§2** Names of files.
- **§3** What is read.
- **§4** Evaluation.
- **§5** Confinement.
-/

namespace SqlWorkflow

open Evaluation (Evaluator)

/-! ## §1 Where paths lead by their text -/

namespace Path

/-- Does the path start at the root? -/
def IsAbsolute (path : String) : Prop := path.toList.head? = some '/'

instance (path : String) : Decidable (IsAbsolute path) := inferInstanceAs (Decidable (_ = _))

/-- The segments of a path that lead somewhere else. -/
def steps (path : String) : List String := (segments path).filter isProper

/-- The path leads to the folder or to something below it, whatever there is on a disk. -/
structure Inside (folder path : String) : Prop where
  isAbsolute_iff : IsAbsolute path ↔ IsAbsolute folder
  exists_steps_eq : ∃ below, steps path = steps folder ++ below ∧ ".." ∉ below

variable {folder relative : String}

/-- Where a path inside of a folder leads: first to the folder, then on. -/
theorem steps_append (folder relative : String) :
    steps (append folder relative) = steps folder ++ steps relative := by
  obtain ⟨rfl, happend⟩ | ⟨shorter, rfl, happend⟩ | ⟨-, happend⟩ := append_cases folder relative
  · rw [happend]
    rfl
  · rw [happend, steps, segments_append_slash, steps, segments_append_slash, List.filter_append,
      List.filter_append, List.append_assoc]
    rfl
  · rw [happend, steps, segments_append_slash, List.filter_append]
    rfl

theorem isAbsolute_append_iff (h : ¬ IsAbsolute relative) :
    IsAbsolute (append folder relative) ↔ IsAbsolute folder := by
  obtain ⟨rfl, happend⟩ | ⟨shorter, rfl, happend⟩ | ⟨hne, happend⟩ := append_cases folder relative
  · rw [happend]
    exact iff_of_false h (by decide)
  · rw [happend]
    simp [IsAbsolute, String.toList_append, List.append_assoc, List.head?_append]
  · rw [happend]
    have hne : folder.toList ≠ [] := by simpa using hne
    obtain ⟨c, cs, hcs⟩ := List.exists_cons_of_ne_nil hne
    simp [IsAbsolute, String.toList_append, hcs]

/-- A path that neither starts at the root nor goes back stays inside of the folder it is put
after. -/
theorem inside_append (habsolute : ¬ IsAbsolute relative) (hback : ".." ∉ segments relative) :
    Inside folder (append folder relative) where
  isAbsolute_iff := isAbsolute_append_iff habsolute
  exists_steps_eq := ⟨steps relative, steps_append folder relative,
    fun h => hback (List.mem_filter.1 h).1⟩

end Path

/-! ## §2 Names of files -/

namespace ProjectFolder

variable {p : ProjectFolder} {name full : String}

theorem leadsOut_eq_false_iff {path : String} :
    leadsOut path = false ↔
      path ≠ "" ∧ ¬ Path.IsAbsolute path ∧ ".." ∉ Path.segments path ∧ ':' ∉ path.toList := by
  simp [leadsOut, Path.IsAbsolute, and_assoc]

/-- A name is resolved to the folder with a path after it that does not leave it. -/
theorem of_resolve_eq_ok (h : p.resolve name = .ok full) :
    ∃ relative, relative = Path.normalize name ∧ relative ≠ "" ∧ ¬ Path.IsAbsolute relative ∧
      ".." ∉ Path.segments relative ∧ full = Path.append p.path relative := by
  obtain ⟨hleads, rfl⟩ := (resolve_eq_ok_iff p name full).1 h
  obtain ⟨hne, habsolute, hback, -⟩ := leadsOut_eq_false_iff.1 hleads
  exact ⟨_, rfl, hne, habsolute, hback, rfl⟩

theorem inside_of_resolve_eq_ok (h : p.resolve name = .ok full) : Path.Inside p.path full := by
  obtain ⟨relative, -, -, habsolute, hback, rfl⟩ := of_resolve_eq_ok h
  exact Path.inside_append habsolute hback

/-- On a disk too, a resolved name leads to the folder or to something below it. -/
theorem isPrefix_of_resolve_eq_ok {place place' : List String} (h : p.resolve name = .ok full)
    (hfolder : p.disk.locate p.path = .ok place) (hfull : p.disk.locate full = .ok place') :
    place <+: place' := by
  obtain ⟨relative, -, -, -, hback, rfl⟩ := of_resolve_eq_ok h
  rw [Disk.locate_append hfolder, Disk.walk_eq_descend hback] at hfull
  split at hfull
  · cases hfull
  · obtain ⟨below, -, rfl⟩ := exists_of_map_eq_ok hfull
    exact List.prefix_append place below

/-- A name that starts at the root or goes back is refused, whatever there is on the disk. -/
theorem resolve_eq_error (h : Path.IsAbsolute (Path.normalize name) ∨
    ".." ∈ Path.segments (Path.normalize name)) : p.resolve name = .error (.escapes name) := by
  have hleads : leadsOut (Path.normalize name) = true := by
    rw [← Bool.not_eq_false, leadsOut_eq_false_iff]
    exact fun hin => h.elim hin.2.1 hin.2.2.1
  rw [resolve, if_pos hleads]

/-! ## §3 What is read -/

/-- The same project on another disk. -/
def onDisk (p : ProjectFolder) (disk : Disk) : ProjectFolder := { p with disk }

/-- On another disk, paths that do not leave the folder of the project lead to the same texts. -/
def SameInside (p : ProjectFolder) (disk : Disk) : Prop :=
  ∀ relative, ¬ Path.IsAbsolute relative → ".." ∉ Path.segments relative →
    disk.isFile (Path.append p.path relative) = p.disk.isFile (Path.append p.path relative) ∧
      disk.read (Path.append p.path relative) = p.disk.read (Path.append p.path relative)

/-- It is enough that the folder is on both disks and holds the same there. -/
theorem sameInside_of_at? {disk : Disk} {place place' : List String}
    (h : p.disk.locate p.path = .ok place) (h' : disk.locate p.path = .ok place')
    (htree : disk.root.at? place' = p.disk.root.at? place) : p.SameInside disk := by
  intro relative _ hback
  have hfind := Disk.find_append_congr h h' htree hback
  exact ⟨by rw [Disk.isFile, Disk.isFile, hfind], by rw [Disk.read, Disk.read, hfind]⟩

/-- The files of a project are read from its folder only. -/
theorem SameInside.read_eq {disk : Disk} (h : p.SameInside disk) :
    (p.onDisk disk).read = p.read := by
  funext name
  cases hresolve : p.resolve name with
  | error e =>
    -- Names are checked by their text alone, so on both disks the same ones are refused.
    have hresolve' : (p.onDisk disk).resolve name = .error e := hresolve
    rw [read, read, hresolve, hresolve']
    rfl
  | ok full =>
    have hresolve' : (p.onDisk disk).resolve name = .ok full := hresolve
    obtain ⟨relative, -, -, habsolute, hback, rfl⟩ := of_resolve_eq_ok hresolve
    obtain ⟨hfile, htext⟩ := h relative habsolute hback
    rw [read, read, hresolve, hresolve']
    change (if disk.isFile _ then _ else _) = _
    rw [hfile, show (p.onDisk disk).disk.read _ = p.disk.read _ from htext]
    rfl

end ProjectFolder

/-! ## §4 Evaluation -/

namespace Evaluation

/-- A script sees the files of its project only by reading them: no declaration looks elsewhere. -/
theorem declareBy_eq_of_read {s : ScriptScope} {q : ProjectFolder} (h : q.read = s.project.read)
    (d : Declarator) : declareBy { s with project := q } d = declareBy s d := by
  have htext : notebookText q = notebookText s.project := by
    funext path
    rw [notebookText, notebookText, h]
  funext args
  cases d
  case notebook =>
    unfold declareBy declaredNotebook
    rw [htext]
  all_goals rfl

namespace Evaluator

variable {e : Evaluator} {q : ProjectFolder}

/-- The evaluator for another project, whose files it evaluates as it did before. -/
def ofProject (e : Evaluator) (q : ProjectFolder) : Evaluator := { e with project := q }

section

variable (h : q.read = e.project.read)

include h

theorem environment_ofProject (functions : List String) (capturing : Bool)
    (call : Template.Calls Progress → String → List Template.Value → Host Template.Value) :
    (e.ofProject q).environment functions capturing call =
      e.environment functions capturing call := by
  have hload : (e.ofProject q).loadTemplate = e.loadTemplate := by
    funext path
    change (q.read path).mapError _ = _
    rw [h]
    rfl
  unfold environment
  rw [hload]
  rfl

theorem scriptEnvironment_ofProject (filePath : String) :
    (e.ofProject q).scriptEnvironment filePath = e.scriptEnvironment filePath := by
  let scope : ScriptScope := { project := e.project, policy := e.options.policy, filePath }
  have hdeclare : declareBy { scope with project := q } = declareBy scope :=
    funext (declareBy_eq_of_read h)
  have hscope : ScriptScope.mk (e.ofProject q).project (e.ofProject q).options.policy filePath =
      { scope with project := q } := rfl
  unfold scriptEnvironment
  rw [environment_ofProject h]
  dsimp only
  rw [hscope, hdeclare]

theorem evaluate_ofProject (program : Sql.Program) :
    (e.ofProject q).evaluate program = e.evaluate program := by
  cases program with
  | script filePath source =>
    change runScript _ _ _ = runScript _ _ _
    unfold runScript
    rw [scriptEnvironment_ofProject h]
    rfl
  | action program =>
    unfold evaluate
    dsimp only
    split
    · unfold runAction withIncrementalQuery runTemplate actionEnvironment
      rw [environment_ofProject h]
      rfl
    · unfold runTest plainEnvironment runTemplate
      rw [environment_ofProject h]
      rfl

theorem textOf_ofProject (path : String) : (e.ofProject q).textOf path = e.textOf path := by
  unfold textOf
  rw [← h]
  rfl

theorem probeFile_ofProject (path : String) :
    (e.ofProject q).probeFile path = e.probeFile path := by
  unfold probeFile probe plainEnvironment
  rw [textOf_ofProject h, environment_ofProject h]
  rfl

theorem evaluateFile_ofProject (points : EntryPoints) (path : String) :
    (e.ofProject q).evaluateFile points path = e.evaluateFile points path := by
  unfold evaluateFile
  rw [textOf_ofProject h]
  simp only [evaluate_ofProject h]

theorem addDefinition_ofProject (points : EntryPoints) :
    (e.ofProject q).addDefinition points = e.addDefinition points := by
  funext s path
  unfold addDefinition
  rw [evaluateFile_ofProject h]

/-- An include that is evaluated adds the same, and can be imported if it could be before. -/
theorem addInclude_ofProject (s : Session) (path : String) :
    addInclude (s, e.ofProject q) path =
      ((addInclude (s, e) path).1, (addInclude (s, e) path).2.ofProject q) := by
  unfold addInclude
  dsimp only
  rw [probeFile_ofProject h]
  split <;> rfl

end

/-- Importing an include leaves the project. -/
theorem project_addInclude (s : Session) (e : Evaluator) (path : String) :
    (addInclude (s, e) path).2.project = e.project := by
  unfold addInclude
  dsimp only
  split <;> rfl

theorem project_foldl_addInclude (s : Session) (e : Evaluator) (paths : List String) :
    (paths.foldl addInclude (s, e)).2.project = e.project := by
  induction paths generalizing s e with
  | nil => rfl
  | cons path paths ih =>
    have hproject := project_addInclude s e path
    rw [List.foldl_cons, ← hproject]
    generalize addInclude (s, e) path = state
    exact ih state.1 state.2

theorem foldl_addInclude_ofProject (h : q.read = e.project.read) (s : Session)
    (paths : List String) : paths.foldl addInclude (s, e.ofProject q) =
      ((paths.foldl addInclude (s, e)).1, (paths.foldl addInclude (s, e)).2.ofProject q) := by
  induction paths generalizing s e with
  | nil => rfl
  | cons path paths ih =>
    -- The evaluator that has imported the include still has the project that the rest asks for.
    have hproject := project_addInclude s e path
    rw [List.foldl_cons, List.foldl_cons, addInclude_ofProject h]
    generalize addInclude (s, e) path = state at hproject ⊢
    exact ih (hproject ▸ h) state.1

/-- The evaluation of a project depends on what is read of its files only. -/
theorem evaluateIndex_ofProject (h : q.read = e.project.read) (points : EntryPoints)
    (index : ProjectIndex) (s : Session) :
    (e.ofProject q).evaluateIndex points index s = e.evaluateIndex points index s := by
  have hproject := project_foldl_addInclude s e index.includes
  have hread : q.read = (index.includes.foldl addInclude (s, e)).2.project.read := hproject ▸ h
  unfold evaluateIndex
  rw [foldl_addInclude_ofProject h s index.includes]
  dsimp only
  rw [addDefinition_ofProject hread points]

end Evaluator

end Evaluation

/-! ## §5 Confinement -/

namespace ProjectFolder

/-- No file of a project is looked for outside of its folder.  A name is resolved to the folder with
a path after it that does not leave it; a name that starts at the root or goes back is refused
before the disk is looked at; and so the includes and definitions of an index, the templates that
they embed and their notebooks give the same on any other disk with the same folder. -/
theorem confined (p : ProjectFolder) :
    (∀ name full, p.resolve name = .ok full →
      Path.Inside p.path full ∧ ∃ relative, relative = Path.normalize name ∧ relative ≠ "" ∧
        ¬ Path.IsAbsolute relative ∧ ".." ∉ Path.segments relative ∧
        full = Path.append p.path relative) ∧
    (∀ name, (Path.IsAbsolute (Path.normalize name) ∨
        ".." ∈ Path.segments (Path.normalize name)) → ∀ disk,
      (p.onDisk disk).resolve name = .error (.escapes name) ∧
        (p.onDisk disk).read name = .error (.escapes name)) ∧
    ∀ disk, p.SameInside disk → ∀ (options : Evaluation.Options) imports points index session,
      ({ project := p.onDisk disk, options, imports } : Evaluator).evaluateIndex points index
          session =
        ({ project := p, options, imports } : Evaluator).evaluateIndex points index session := by
  refine ⟨fun name full h => ⟨inside_of_resolve_eq_ok h, of_resolve_eq_ok h⟩, ?_, ?_⟩
  · intro name h disk
    have hresolve : (p.onDisk disk).resolve name = .error (.escapes name) := resolve_eq_error h
    refine ⟨hresolve, ?_⟩
    rw [read, hresolve]
    rfl
  · intro disk hsame options imports points index session
    let e : Evaluator := { project := p, options, imports }
    have hread : (p.onDisk disk).read = e.project.read := hsame.read_eq
    exact Evaluator.evaluateIndex_ofProject hread points index session

/-- A disk with a project in the folder `work`, which has an include, and with a file next to it. -/
def neighbours (secret : String) : Disk where
  root := (FileTree.empty.putFile ["work", "includes", "a.jinja"] (.text "{{ name() }}")).putFile
    ["secret"] (.text secret)

/-- The include is read, the file next to the project is not, and what it holds does not matter. -/
theorem confined_neighbours :
    let p : ProjectFolder := { disk := neighbours "one", path := "/work" }
    p.resolve "includes\\a.jinja" = .ok "/work/includes/a.jinja" ∧
      Path.Inside "/work" "/work/includes/a.jinja" ∧
      p.read "includes\\..\\../secret" = .error (.escapes "includes\\..\\../secret") ∧
      ({ project := p.onDisk (neighbours "two") } : Evaluator).evaluateIndex .current
          { includes := ["includes/a.jinja"], definitions := ["/secret"] } default =
        ({ project := p } : Evaluator).evaluateIndex .current
          { includes := ["includes/a.jinja"], definitions := ["/secret"] } default := by
  let p : ProjectFolder := { disk := neighbours "one", path := "/work" }
  obtain ⟨hin, hout, hsame⟩ := confined p
  have hresolve : p.resolve "includes\\a.jinja" = .ok "/work/includes/a.jinja" :=
    (resolve_eq_ok_iff _ _ _).2 (by decide +kernel)
  have hback : ".." ∈ Path.segments (Path.normalize "includes\\..\\../secret") := by
    decide +kernel
  have hfolder : p.SameInside (neighbours "two") :=
    sameInside_of_at? (rfl : p.disk.locate "/work" = .ok ["work"])
      (rfl : (neighbours "two").locate "/work" = .ok ["work"]) rfl
  exact ⟨hresolve, (hin _ _ hresolve).1, (hout _ (.inr hback) p.disk).2,
    hsame _ hfolder _ _ _ _ _⟩

end ProjectFolder

end SqlWorkflow
