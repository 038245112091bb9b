import SqlWorkflow.Proofs.Session.Headers

/-!
# Nothing is lost by compiling

A compiled graph accounts for everything that its session was told, however broken the project is:
for each registration there is one action, for each check of a table one assertion, and there are no
others (`Session.conserves_compile`).  Targets that occur twice, references to nothing, and actions
that depend on each other do not matter.

- **§1** What an action keeps of the registration that it was made from.
- **§2** The order of the actions and of their dependencies.
- **§3** What is said about unit tests.
- **§4** The main statement.
-/

namespace SqlWorkflow

/-! ## §1 What an action keeps -/

/-- What an action keeps of its payload besides its texts. -/
inductive Flags where
  | table (type : TableType) (isProtected : Bool) (uniqueKey : List String)
    (bigquery : Option BigQueryOptions)
  | operation (hasOutput : Bool)
  | assertion (parent : Option Target)
  | declaration
  | notebook
  deriving DecidableEq, Repr

/-- What an action keeps of its registration, texts and dependencies apart. -/
structure Account where
  fileName : String
  canonicalTarget : Target
  target : Target
  descriptor : ActionDescriptor
  tags : List String
  disabled : Bool
  flags : Flags
  deriving Repr

/-- The flags of an action of a graph. -/
def Action.flags : Action → Flags
  | .table a => .table a.type a.isProtected a.uniqueKey a.bigquery
  | .operation a => .operation a.hasOutput
  | .assertion a => .assertion a.parentAction
  | .declaration _ => .declaration
  | .notebook _ => .notebook

/-- What an action of a graph has kept. -/
def Action.account (a : Action) : Account where
  fileName := a.header.fileName
  canonicalTarget := a.header.canonicalTarget
  target := a.header.target
  descriptor := a.header.descriptor.getD {}
  tags := a.header.tags
  disabled := a.header.disabled
  flags := a.flags

/-- The flags that a payload asks for; an assertion may check a table. -/
def Payload.flags (parent : Option Target) : Payload → Flags
  | .table body => .table body.type body.isProtected body.uniqueKey body.bigquery
  | .operation _ hasOutput => .operation hasOutput
  | .assertion _ => .assertion parent
  | .declaration => .declaration
  | .notebook _ => .notebook

/-- What is to be kept of a registration; a declaration has no tags and is never disabled. -/
def Registration.account (config : ProjectConfig) (parent : Option Target) (r : Registration) :
    Account where
  fileName := r.filePath
  canonicalTarget := Entry.canonicalTarget config r
  target := Entry.runtimeTarget config r.payload.kind (Entry.canonicalTarget config r)
  descriptor := r.descriptor
  tags := if r.payload.kind = .declaration then [] else r.tags
  disabled := if r.payload.kind = .declaration then false else r.disabled
  flags := r.payload.flags parent

/-- Documentation that counts as empty says nothing. -/
theorem ActionDescriptor.eq_of_isEmpty {d : ActionDescriptor} (h : d.isEmpty = true) : d = {} := by
  obtain ⟨description, columns⟩ := d
  simp only [isEmpty, Dict.isEmpty, Bool.and_eq_true, Option.isNone_iff_eq_none,
    List.isEmpty_iff] at h
  obtain ⟨rfl, hcolumns⟩ := h
  rw [show columns = ∅ from Dict.ext hcolumns]

namespace Entry

variable {config : ProjectConfig} {entries : List Entry} {e : Entry}

/-- The table that an entry checks. -/
def checked? (entries : List Entry) (e : Entry) : Option Target :=
  e.parent.bind fun p => entries[p]?.map (·.runtime)

theorem finishedHeader_descriptor (entries : List Entry) (e : Entry) :
    (finishedHeader entries e).descriptor.getD {} = e.registration.descriptor := by
  have hheader : (header entries e).descriptor.getD {} = e.registration.descriptor := by
    unfold header
    split
    · next hempty => exact (ActionDescriptor.eq_of_isEmpty hempty).symm
    · rfl
  unfold finishedHeader
  split <;> exact hheader

theorem finishedHeader_tags (entries : List Entry) (e : Entry) :
    (finishedHeader entries e).tags =
      if e.registration.payload.kind = .declaration then [] else e.registration.tags := by
  unfold finishedHeader
  cases e.registration.payload <;> rfl

theorem finishedHeader_disabled (entries : List Entry) (e : Entry) :
    (finishedHeader entries e).disabled =
      if e.registration.payload.kind = .declaration then false else e.registration.disabled := by
  unfold finishedHeader
  cases e.registration.payload <;> rfl

theorem flags_finish (config : ProjectConfig) (entries : List Entry) (e : Entry) (position : Nat) :
    (e.finish config entries position).flags =
      e.registration.payload.flags (checked? entries e) := by
  unfold finish
  cases e.registration.payload <;> rfl

/-- Finishing an entry keeps what is to be kept of its registration, wherever the entry stands. -/
theorem account_finish (h : Named config e) (position : Nat) :
    (e.finish config entries position).account =
      e.registration.account config (checked? entries e) := by
  unfold Action.account Registration.account
  rw [header_finish, flags_finish, finishedHeader_fileName, finishedHeader_canonicalTarget,
    finishedHeader_target, finishedHeader_descriptor, finishedHeader_tags,
    finishedHeader_disabled, h.runtime_eq, h.canonical_eq]

/-- What is to be kept of the assertions that are generated for a table. -/
def checkAccounts (config : ProjectConfig) (table : Entry) : List Account :=
  (checks table.canonical table.checkedAssertions).map fun (name, query) =>
    (checkRegistration table name query).account config (some table.runtime)

theorem map_account_checkEntries {table : Entry} {position : Nat}
    (h : entries[position]? = some table) :
    (checkEntries config table position).map
        (fun e => e.registration.account config (checked? entries e)) =
      checkAccounts config table := by
  rw [checkEntries_eq, List.map_map, checkAccounts]
  refine List.map_congr_left fun (name, query) _ => ?_
  simp [checked?, ofRegistration, h]

/-- Each registration is accounted for once, and each check of a table once. -/
theorem map_account_ofRegistrations (config : ProjectConfig) (rs : List Registration) :
    (ofRegistrations config rs).map
        (fun e => e.registration.account config (checked? (ofRegistrations config rs) e)) =
      rs.map (·.account config none) ++
        (declared config rs).flatMap (checkAccounts config) := by
  rw [map_ofRegistrations fun table position htable =>
    map_account_checkEntries (getElem?_ofRegistrations htable)]
  congr 1
  rw [declared, List.map_map]
  rfl

end Entry

/-! ## §2 Order -/

/-- The target of `a` is less than that of `b`, or both are one and the files are in order. -/
def ActionHeader.Precedes (a b : ActionHeader) : Prop :=
  a.target.order b.target = .lt ∨ a.target = b.target ∧ a.fileName ≤ b.fileName

theorem ActionHeader.precedes_of_le {a b : ActionHeader} (h : a.le b = true) : a.Precedes b := by
  rw [le, Ordering.isLE_then_iff_or] at h
  rcases h with hlt | ⟨heq, hfiles⟩
  · exact .inl hlt
  · have hfiles : a.fileName ≤ b.fileName :=
      (isLE_compareOfLessAndEq String.le_antisymm String.not_le String.le_total).1 hfiles
    exact .inr ⟨Target.eq_of_order_eq heq, hfiles⟩

theorem pairwise_arranged {α : Type} (kind? : Action → Option α) (header : α → ActionHeader)
    (actions : List Action) :
    ((arranged kind? header actions).map header).Pairwise ActionHeader.Precedes := by
  rw [List.pairwise_map]
  refine List.Pairwise.imp ActionHeader.precedes_of_le (List.pairwise_mergeSort ?_ ?_ _)
  · exact fun _ _ _ => ActionHeader.le_trans
  · exact fun _ _ => ActionHeader.le_total _ _

/-- The headers of a graph, in one list for each kind of action. -/
def CompiledGraph.headersByKind (g : CompiledGraph) : List (List ActionHeader) :=
  [ g.tables.map (·.header), g.operations.map (·.header), g.assertions.map (·.header),
    g.declarations.map (·.header), g.notebooks.map (·.header) ]

theorem CompiledGraph.pairwise_of_mem_headersByKind {coreVersion : String} {config : ProjectConfig}
    {actions : List Action} {tests : List CompiledTest} {errors : GraphErrors}
    {headers : List ActionHeader}
    (h : headers ∈ (assemble coreVersion config actions tests errors).headersByKind) :
    headers.Pairwise ActionHeader.Precedes := by
  simp only [headersByKind, List.mem_cons, List.not_mem_nil, or_false] at h
  rcases h with rfl | rfl | rfl | rfl | rfl
  · exact pairwise_arranged Action.table? Table.header actions
  · exact pairwise_arranged Action.operation? Operation.header actions
  · exact pairwise_arranged Action.assertion? Assertion.header actions
  · exact pairwise_arranged Action.declaration? Declaration.header actions
  · exact pairwise_arranged Action.notebook? Notebook.header actions

namespace Entry

theorem nodup_withoutRepeats (targets : List Target) : (withoutRepeats targets).Nodup := by
  induction targets with
  | nil => exact List.nodup_nil
  | cons t targets ih =>
    rw [withoutRepeats]
    split
    · exact ih
    · next hfresh => exact List.nodup_cons.2 ⟨mem_withoutRepeats_iff.not.2 hfresh, ih⟩

/-- Sorted targets without repetitions increase strictly. -/
theorem pairwise_dependencyTargets (entries : List Entry) (e : Entry) :
    (dependencyTargets entries e).Pairwise fun t u => t.order u = .lt := by
  have hnodup : (dependencyTargets entries e).Nodup :=
    (List.mergeSort_perm _ _).nodup_iff.2 (nodup_withoutRepeats _)
  refine ((Target.pairwise_mergeSort _).and hnodup).imp fun {t u} ⟨hle, hne⟩ => ?_
  cases horder : t.order u with
  | lt => rfl
  | eq => exact absurd (Target.eq_of_order_eq horder) hne
  | gt => simp [Target.le, horder] at hle

end Entry

/-! ## §3 Unit tests -/

/-- What is said about unit tests is said about their files. -/
theorem UnitTest.exists_of_mem_finishAll {entries : List Entry} {tests : List UnitTest}
    {seen : List String} {m : FileMessage} (h : m ∈ (finishAll entries seen tests).2) :
    ∃ test ∈ tests, m.fileName = test.filePath := by
  induction tests generalizing seen with
  | nil => cases h
  | cons test rest ih =>
    rw [finishAll] at h
    split at h
    · rcases List.mem_cons.1 h with rfl | h
      · exact ⟨test, List.mem_cons_self, rfl⟩
      · obtain ⟨test', htest', hfile⟩ := ih h
        exact ⟨test', List.mem_cons_of_mem _ htest', hfile⟩
    · rcases List.mem_append.1 h with h | h
      · obtain ⟨problem, -, rfl⟩ := List.mem_map.1 h
        exact ⟨test, List.mem_cons_self, rfl⟩
      · obtain ⟨test', htest', hfile⟩ := ih h
        exact ⟨test', List.mem_cons_of_mem _ htest', hfile⟩

/-! ## §4 Compiled graphs -/

namespace Session

/-- The graph accounts for everything that the session was told, in order. -/
structure Conserves (s : Session) (g : CompiledGraph) : Prop where
  /-- One action for each registration and one assertion for each check of a table. -/
  accounts : (g.actions.map Action.account).Perm
    (s.registrations.map (·.account s.config none) ++
      (Entry.declared s.config s.registrations).flatMap (Entry.checkAccounts s.config))
  actions_sorted : ∀ headers ∈ g.headersByKind, headers.Pairwise ActionHeader.Precedes
  dependencies_sorted : ∀ h ∈ g.headers, h.dependencyTargets.Pairwise fun t u => t.order u = .lt
  /-- Errors that were recorded come first; what is found later is about the files of tests. -/
  compilationErrors : ∃ found, g.graphErrors.compilationErrors = s.compilationErrors ++ found ∧
    ∀ m ∈ found, ∃ test ∈ s.tests, m.fileName = test.filePath
  warnings : g.graphErrors.warnings = s.warnings

theorem accounts_compile (s : Session) :
    (s.compile.actions.map Action.account).Perm
      (s.registrations.map (·.account s.config none) ++
        (Entry.declared s.config s.registrations).flatMap (Entry.checkAccounts s.config)) := by
  have hperm : s.compile.actions.Perm (actions s.config s.entries) :=
    CompiledGraph.actions_assemble_perm
  refine (hperm.map _).trans (List.Perm.of_eq ?_)
  rw [← Entry.map_account_ofRegistrations, ← Entry.map_fst_zipIdx, actions, List.map_map]
  refine List.map_congr_left fun p hmem => ?_
  obtain ⟨e, i⟩ := p
  have he : e ∈ s.entries := List.mem_of_getElem? (List.mem_zipIdx_iff_getElem?.1 hmem)
  exact Entry.account_finish (Entry.named_of_mem he) i

/-- Whatever a session was told, compiling it loses nothing of it and makes nothing up. -/
theorem conserves_compile (s : Session) : s.Conserves s.compile where
  accounts := s.accounts_compile
  actions_sorted _ h := CompiledGraph.pairwise_of_mem_headersByKind h
  dependencies_sorted := by
    intro h hmem
    obtain ⟨e, -, rfl⟩ := s.mem_headers_compile.1 hmem
    rw [Entry.finishedHeader_dependencyTargets]
    exact Entry.pairwise_dependencyTargets s.entries e
  compilationErrors := ⟨_, rfl, fun _ hm => UnitTest.exists_of_mem_finishAll hm⟩
  warnings := rfl

/-- A table with a check and a reference to nothing, and a declaration of the same target. -/
example :
    let s : Session :=
      { config := {}, coreVersion := "3.0.0"
        registrations :=
          [ { filePath := "orders.sqlx", name := "orders", dependencies := [.named "nowhere"]
              payload := .table { query := "SELECT 1 AS n", assertions := { nonNull := ["n"] } } },
            { filePath := "sources.sqlx", name := "orders", payload := .declaration } ] }
    s.compile.actions.map (fun a => (a.account.fileName, a.account.target.name)) =
        [ ("orders.sqlx", "orders"), ("orders.sqlx", "dataform_orders_assertions_rowConditions"),
          ("sources.sqlx", "orders") ] ∧
      s.compile.graphErrors.validationErrors ≠ [] := by
  decide +kernel

end Session

end SqlWorkflow
