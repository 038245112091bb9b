import SqlWorkflow.Proofs.Graph.Cycles

/-!
# Graphs built by additions

A graph grows by nodes and by dependencies, in any order and with any repetitions.

- **§1** What a graph holds after a sequence of additions (`mem_nodes_build`, `edge_build`), and
  that it is well formed.
- **§2** Two sequences of the same additions build the same graph, up to the order in which nodes
  and edges are listed (`sameGraph_build`).
-/

namespace SqlWorkflow.Dag

/-! ## §1 What has been added -/

/-- Something that is added to a graph. -/
inductive Addition where
  | node (t : Target)
  | dependency (dependent dependency : Target)
  deriving DecidableEq, Repr

/-- The targets that an addition names. -/
def Addition.targets : Addition → List Target
  | .node t => [t]
  | .dependency dependent required => [required, dependent]

/-- The graph after an addition. -/
def add (g : Dag) : Addition → Dag
  | .node t => g.addNode t
  | .dependency dependent dependency => g.addDependency dependent dependency

/-- The graph after any number of additions to an empty one. -/
def build (additions : List Addition) : Dag := additions.foldl add {}

variable {g : Dag} {addition : Addition} {additions additions' : List Addition} {a b t : Target}

theorem WellFormed.add (h : g.WellFormed) (addition : Addition) : (g.add addition).WellFormed := by
  cases addition with
  | node t => exact h.addNode t
  | dependency dependent dependency => exact h.addDependency dependent dependency

theorem mem_nodes_add : t ∈ (g.add addition).nodes ↔ t ∈ g.nodes ∨ t ∈ addition.targets := by
  cases addition with
  | node s => simp [add, Addition.targets, mem_nodes_addNode]
  | dependency dependent dependency =>
    simp [add, Addition.targets, mem_nodes_addDependency]

theorem edge_add :
    (g.add addition).Edge a b ↔ g.Edge a b ∨ addition = .dependency b a := by
  cases addition with
  | node s => simp [add, edge_addNode]
  | dependency dependent dependency =>
    rw [add, edge_addDependency, Addition.dependency.injEq]
    -- An edge leads from the dependency, which is named second.
    exact or_congr_right ⟨fun h => ⟨h.2.symm, h.1.symm⟩, fun h => ⟨h.2.symm, h.1.symm⟩⟩

/-- What the additions to a well-formed graph make of it. -/
theorem WellFormed.foldl_add (h : g.WellFormed) (additions : List Addition) :
    (additions.foldl Dag.add g).WellFormed ∧
      (∀ t, t ∈ (additions.foldl Dag.add g).nodes ↔
        t ∈ g.nodes ∨ t ∈ additions.flatMap Addition.targets) ∧
      ∀ a b, (additions.foldl Dag.add g).Edge a b ↔
        g.Edge a b ∨ Addition.dependency b a ∈ additions := by
  -- From the front, and so from any graph.
  induction additions generalizing g with
  | nil => simpa using h
  | cons addition additions ih =>
    obtain ⟨hwf, hnodes, hedges⟩ := ih (h.add addition)
    refine ⟨hwf, ?_, ?_⟩
    · intro t
      rw [List.foldl_cons, hnodes, mem_nodes_add, List.flatMap_cons, List.mem_append, or_assoc]
    · intro a b
      rw [List.foldl_cons, hedges, edge_add, List.mem_cons, or_assoc]
      simp only [eq_comm]

theorem wellFormed_build (additions : List Addition) : (build additions).WellFormed :=
  (wellFormed_empty.foldl_add additions).1

/-- The nodes of a graph are the targets that were named. -/
theorem mem_nodes_build :
    t ∈ (build additions).nodes ↔ t ∈ additions.flatMap Addition.targets := by
  have hnodes := (wellFormed_empty.foldl_add additions).2.1 t
  simpa [build] using hnodes

/-- The edges of a graph are the dependencies that were added. -/
theorem edge_build :
    (build additions).Edge a b ↔ Addition.dependency b a ∈ additions := by
  have hedges := (wellFormed_empty.foldl_add additions).2.2 a b
  simpa [build, Edge] using hedges

/-! ## §2 The same additions -/

/-- Well-formed graphs are the same if they hold the same nodes and the same edges. -/
theorem WellFormed.sameGraph {g' : Dag} (h : g.WellFormed) (h' : g'.WellFormed)
    (hnodes : ∀ t, t ∈ g.nodes ↔ t ∈ g'.nodes) (hedges : ∀ a b, g.Edge a b ↔ g'.Edge a b) :
    SameGraph g g' where
  nodes := (List.perm_ext_iff_of_nodup h.nodes_nodup h'.nodes_nodup).2 hnodes
  edges := (List.perm_ext_iff_of_nodup h.edges_nodup h'.edges_nodup).2 fun ⟨a, b⟩ => hedges a b

/-- Neither the order of the additions nor their repetitions matter. -/
theorem sameGraph_build (h : ∀ addition, addition ∈ additions ↔ addition ∈ additions') :
    SameGraph (build additions) (build additions') := by
  apply (wellFormed_build additions).sameGraph (wellFormed_build additions')
  · intro t
    simp only [mem_nodes_build, List.mem_flatMap, h]
  · intro a b
    rw [edge_build, edge_build, h]

end SqlWorkflow.Dag
