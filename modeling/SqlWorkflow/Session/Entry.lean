import SqlWorkflow.Graph.Basic
import SqlWorkflow.Target.Deferred

/-!
# Entries and references

An entry is a registered action with its two names: the canonical target, which authors use, and
the runtime target, which the warehouse uses.  Checks of a table's rows are entries of their own.

A reference resolves to the entries whose canonical target it fits or, if there are none, to
those whose runtime target it fits.  Entries with one runtime target count as one.
-/

namespace SqlWorkflow

/-- A registered action and its names. -/
structure Entry where
  registration : Registration
  canonical : Target
  runtime : Target
  /-- The position of the table that the entry checks. -/
  parent : Option Nat := none
  deriving Repr, Inhabited

namespace Entry

/-! ## §1 Names -/

/-- The schema of an action that does not name one. -/
def schemaOf (config : ProjectConfig) (kind : ActionKind) : String :=
  if kind = .assertion then config.assertionSchema else config.defaultSchema

/-- The canonical target of an action. -/
def canonicalTarget (config : ProjectConfig) (r : Registration) : Target where
  database := r.database.or config.defaultDatabase
  schema := r.schema.getD (schemaOf config r.payload.kind)
  name := r.name

/-- The runtime target of an action: affixes are put on unless the object exists already. -/
def runtimeTarget (config : ProjectConfig) (kind : ActionKind) (t : Target) : Target :=
  if kind = .declaration then t
  else
    { database := config.runtimeDatabase t.database
      schema := config.runtimeSchema t.schema
      name := config.runtimeName t.name }

/-- The entry of a registration. -/
def ofRegistration (config : ProjectConfig) (r : Registration) (parent : Option Nat) : Entry :=
  let canonical := canonicalTarget config r
  { registration := r, canonical, parent
    runtime := runtimeTarget config r.payload.kind canonical }

/-! ## §2 Checks of a table's rows -/

/-- The marker for a table. -/
def markerOf (table : Target) : String := (Deferred.target (TargetRef.ofTarget table)).encode

/-- A query for rows that share the values of the given columns. -/
def uniqueKeyQuery (table : Target) (columns : List String) : String :=
  let columns := Text.join ", " columns
  "SELECT\n  *\nFROM (\n  SELECT\n    " ++ columns ++
    ",\n    COUNT(1) AS index_row_count\n  FROM " ++ markerOf table ++ "\n  GROUP BY " ++ columns ++ "\n  ) AS data\nWHERE index_row_count > 1\n"

/-- A text between single quotes in SQL, without the quotes. -/
def quoteFree (s : String) : String :=
  String.ofList (Text.replaceChar '\'' ['\\', '\''] s.toList)

/-- A query for rows that break a condition. -/
def conditionQuery (table : Target) (condition : String) : String :=
  "SELECT\n  '" ++ quoteFree condition ++ "' AS failing_row_condition,\n  *\nFROM " ++
    markerOf table ++ "\nWHERE NOT (" ++ condition ++ ")\n"

/-- The conditions that every row must meet. -/
def conditions (a : TableAssertions) : List String :=
  a.rowConditions ++ a.nonNull.map (· ++ " IS NOT NULL")

/-- The keys that must be unique. -/
def uniqueKeys (a : TableAssertions) : List (List String) :=
  (if a.uniqueKey.isEmpty then [] else [a.uniqueKey]) ++ a.uniqueKeys

/-- The names and queries of the assertions that check a table. -/
def checks (table : Target) (a : TableAssertions) : List (String × String) :=
  let name := table.schema ++ "_" ++ table.name ++ "_assertions"
  let keys := (uniqueKeys a).zipIdx.map fun (columns, i) =>
    (name ++ "_uniqueKey_" ++ toString i, uniqueKeyQuery table columns)
  let rows :=
    if (conditions a).isEmpty then []
    else [(name ++ "_rowConditions",
      Text.join "UNION ALL\n" ((conditions a).map (conditionQuery table)))]
  keys ++ rows

/-- The registration of an assertion that checks the table of an entry. -/
def checkRegistration (table : Entry) (name query : String) : Registration where
  filePath := table.registration.filePath
  name := name
  dependencies := [TargetRef.ofTarget table.canonical]
  tags := table.registration.tags
  disabled := table.registration.disabled
  payload := .assertion query

/-- The checks that an entry asks for. -/
def assertions? (e : Entry) : Option TableAssertions :=
  match e.registration.payload with
  | .table body => if body.assertions.isEmpty then none else some body.assertions
  | _ => none

/-- Are unique keys given in both possible ways? -/
def keysTwice (e : Entry) : Bool :=
  match e.assertions? with
  | some a => !a.uniqueKey.isEmpty && !a.uniqueKeys.isEmpty
  | none => false

/-- The entries that check the entry at the given position. -/
def checkEntries (config : ProjectConfig) (e : Entry) (position : Nat) : List Entry :=
  match e.assertions? with
  | none => []
  | some a =>
    if e.keysTwice then []
    else
      (checks e.canonical a).map fun (name, query) =>
        ofRegistration config (checkRegistration e name query) (some position)

/-- The entries of all registrations, and after them those that check their tables. -/
def ofRegistrations (config : ProjectConfig) (rs : List Registration) : List Entry :=
  let declared := rs.map fun r => ofRegistration config r none
  declared ++ declared.zipIdx.flatMap fun (e, i) => checkEntries config e i

/-! ## §3 Resolution -/

/-- What a reference resolves to; entries are given by position. -/
inductive Resolution where
  | found (position : Nat)
  | missing
  /-- One entry for each of several runtime targets, in their order. -/
  | ambiguous (positions : List Nat)
  deriving DecidableEq, Repr, Inhabited

/-- The entries, with their positions, of which `p` holds. -/
def positions (p : Entry → Bool) (entries : List Entry) : List (Nat × Entry) :=
  (entries.zipIdx.filter fun (e, _) => p e).map fun (e, i) => (i, e)

/-- The first entry for each runtime target. -/
def distinct (candidates : List (Nat × Entry)) : List (Nat × Entry) :=
  candidates.foldl
    (fun acc c => if acc.any (fun d => d.2.runtime = c.2.runtime) then acc else acc ++ [c]) []

/-- The entries that a reference fits. -/
def candidates (entries : List Entry) (r : TargetRef) : List (Nat × Entry) :=
  let canonical := positions (fun e => decide (r.Fits e.canonical)) entries
  if canonical.isEmpty then positions (fun e => decide (r.Fits e.runtime)) entries else canonical

/-- What a reference resolves to. -/
def resolve (entries : List Entry) (r : TargetRef) : Resolution :=
  match distinct (candidates entries r) with
  | [] => .missing
  | [(i, _)] => .found i
  | several => .ambiguous ((several.mergeSort fun a b => a.2.runtime.le b.2.runtime).map (·.1))

/-- The canonical targets of the entries at the given positions. -/
def canonicalTargets (entries : List Entry) (positions : List Nat) : List Target :=
  positions.filterMap fun i => entries[i]?.map (·.canonical)

end Entry

end SqlWorkflow
