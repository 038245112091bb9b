import SqlWorkflow.Graph.Dag
import SqlWorkflow.Session.Entry

/-!
# What is wrong with a set of entries

Names must be free of dots and unique, references must resolve to one entry, and no action may
depend on itself.  Every violation is a finding, which knows its cause, its file and the action it
is about.
-/

namespace SqlWorkflow

/-- The wording for a reference that fits several actions. -/
def ambiguousMessage (r : TargetRef) (candidates : List Target) : String :=
  "Ambiguous Action name: " ++ r.readable ++ ". Did you mean one of: " ++
    Text.join ", " (candidates.map Target.readable) ++ "."

/-- Why a set of entries is no valid graph. -/
inductive FindingCause where
  | keysTwice
  | component (e : Target.ComponentError)
  /-- Two files define one target. -/
  | duplicate (target : Target) (first second : String)
  | missing (action : Target) (reference : TargetRef)
  | ambiguous (reference : TargetRef) (candidates : List Target)
  | cycle (targets : List Target)
  /-- A text refers to an operation that has no output. -/
  | outputless
  deriving DecidableEq, Repr, Inhabited

/-- The wording of a cause. -/
def FindingCause.message : FindingCause → String
  | .keysTwice => "Specify at most one of 'assertions.uniqueKey' and 'assertions.uniqueKeys'"
  | .component e => e.message
  | .duplicate target first second =>
    "Duplicate action name detected. Names within a schema must be unique across tables, " ++
      "declarations, assertions, and operations: \"" ++ target.readable ++
      "\" is defined in both " ++ first ++ " and " ++ second
  | .missing action reference =>
    "Missing dependency detected: Action \"" ++ action.readable ++ "\" depends on \"" ++
      reference.readable ++ "\" which does not exist"
  | .ambiguous reference candidates => ambiguousMessage reference candidates
  | .cycle targets =>
    "Circular dependency detected in chain: [" ++ Dag.formatCycle targets ++ "]"
  | .outputless => "Actions cannot resolve operations which do not produce output."

/-- Something that is wrong with a set of entries. -/
structure Finding where
  file : String
  cause : FindingCause
  target : Option Target
  deriving DecidableEq, Repr, Inhabited

/-- The finding as it stands in a graph. -/
def Finding.toError (f : Finding) : ValidationError := ⟨f.file, f.cause.message, f.target⟩

namespace Entry

/-- A finding about an entry. -/
def finding (e : Entry) (cause : FindingCause) : Finding :=
  ⟨e.registration.filePath, cause, some e.canonical⟩

/-- Tables whose unique keys are given in both possible ways. -/
def keyFindings (entries : List Entry) : List Finding :=
  (entries.filter keysTwice).map fun e => e.finding .keysTwice

/-- Components with dots. -/
def componentFindings (entries : List Entry) : List Finding :=
  entries.flatMap fun e => e.canonical.componentErrors.map fun c => e.finding (.component c)

/-! ## §1 Uniqueness -/

/-- For each target that occurs before: the position of its first occurrence and its own. -/
def collisions (targets : List Target) : List (Nat × Nat) :=
  targets.zipIdx.filterMap fun (t, i) =>
    if targets.idxOf t < i then some (targets.idxOf t, i) else none

/-- The finding for two entries that share a target. -/
def duplicateFinding (targetOf : Entry → Target) (entries : List Entry) (pair : Nat × Nat) :
    Option Finding := do
  let first ← entries[pair.1]?
  let second ← entries[pair.2]?
  let target := targetOf second
  return ⟨second.registration.filePath,
    .duplicate target first.registration.filePath second.registration.filePath, some target⟩

/-- Entries that share a runtime target, and entries that share only a canonical one. -/
def duplicateFindings (entries : List Entry) : List Finding :=
  let runtime := collisions (entries.map (·.runtime))
  let canonical := (collisions (entries.map (·.canonical))).filter fun p => !runtime.contains p
  runtime.filterMap (duplicateFinding (·.runtime) entries) ++
    canonical.filterMap (duplicateFinding (·.canonical) entries)

/-! ## §2 Dependencies -/

/-- References of an entry that do not resolve to one entry. -/
def referenceFindings (entries : List Entry) (e : Entry) : List Finding :=
  e.registration.dependencies.filterMap fun r =>
    match resolve entries r with
    | .found _ => none
    | .missing => some (e.finding (.missing e.canonical r))
    | .ambiguous positions =>
      some (e.finding (.ambiguous r (canonicalTargets entries positions)))

/-- The targets without repetitions. -/
def withoutRepeats : List Target → List Target
  | [] => []
  | t :: ts => if t ∈ ts then withoutRepeats ts else t :: withoutRepeats ts

/-- The runtime targets that an entry depends on, in order. -/
def dependencyTargets (entries : List Entry) (e : Entry) : List Target :=
  let found := e.registration.dependencies.filterMap fun r =>
    match resolve entries r with
    | .found i => entries[i]?.map (·.runtime)
    | _ => none
  (withoutRepeats found).mergeSort Target.le

/-- The graph of the dependencies of all entries. -/
def dag (entries : List Entry) : Dag :=
  entries.foldl
    (fun g e => (dependencyTargets entries e).foldl (fun g d => g.addDependency e.runtime d)
      (g.addNode e.runtime)) {}

/-- Dependencies that lead back to where they start. -/
def cycleFindings (entries : List Entry) : List Finding :=
  (dag entries).cycles.map fun cycle =>
    let file := (entries.find? fun e => some e.runtime = cycle.head?).map
      (·.registration.filePath)
    ⟨file.getD "", .cycle cycle, cycle.head?⟩

end Entry

end SqlWorkflow
