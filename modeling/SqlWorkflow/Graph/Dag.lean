import SqlWorkflow.Target.Basic

/-!
# Dependencies between targets

A directed graph of targets; an edge leads from a dependency to what depends on it.  Nodes and
edges keep the order in which they were added, which decides between several orders of the nodes;
the cycles that are found do not depend on it.

Two nodes are in one component if each leads to the other.  A component with an edge inside has a
cycle, and one cycle is reported for each such component.
-/

namespace SqlWorkflow

/-- A graph of dependencies. -/
structure Dag where
  nodes : List Target := []
  /-- Pairs of a dependency and what depends on it. -/
  edges : List (Target × Target) := []
  deriving DecidableEq, Repr, Inhabited

namespace Dag

/-- The graph with a node. -/
def addNode (g : Dag) (t : Target) : Dag :=
  if t ∈ g.nodes then g else { g with nodes := g.nodes ++ [t] }

/-- The graph with `dependent` depending on `dependency`. -/
def addDependency (g : Dag) (dependent dependency : Target) : Dag :=
  let g := (g.addNode dependency).addNode dependent
  if (dependency, dependent) ∈ g.edges then g
  else { g with edges := g.edges ++ [(dependency, dependent)] }

/-- The position of a node. -/
def indexOf (g : Dag) (t : Target) : Nat := g.nodes.idxOf t

/-- What depends directly on a node, in the order in which it was added. -/
def successors (g : Dag) (t : Target) : List Target :=
  g.edges.filterMap fun (dependency, dependent) => if dependency = t then some dependent else none

/-! ## §1 Reachability -/

/-- The nodes that are `seen` already, and those that can be reached from `t` without passing one
of them.  A path without repetitions is shorter than the number of nodes, which bounds `fuel`. -/
def explore (g : Dag) : Nat → List Target → Target → List Target
  | 0, seen, _ => seen
  | fuel + 1, seen, t =>
    if t ∈ seen then seen else (g.successors t).foldl (g.explore fuel) (t :: seen)

/-- The nodes to which at least one edge leads from `t`, directly or by way of others. -/
def reach (g : Dag) (t : Target) : List Target :=
  (g.successors t).foldl (g.explore (g.nodes.length + 1)) []

/-- The nodes of the component of `t` if it holds a cycle. -/
def component (g : Dag) (t : Target) : List Target :=
  (g.reach t).filter fun s => t ∈ g.reach s

/-- Is `t` the smallest node of a component that holds a cycle?  Only what is smaller than `t` has
to be asked whether it leads back. -/
def isLeader (g : Dag) (t : Target) : Bool :=
  let below := g.reach t
  below.contains t && below.all fun s => t.le s || !(g.reach s).contains t

/-- A leader is the smallest node of its component. -/
theorem isLeader_iff {g : Dag} {t : Target} :
    g.isLeader t = true ↔ t ∈ g.component t ∧ ∀ s ∈ g.component t, t.le s = true := by
  simp only [isLeader, component, Bool.and_eq_true, List.all_eq_true, Bool.or_eq_true,
    Bool.not_eq_true', List.contains_iff_mem, List.mem_filter, decide_eq_true_eq]
  constructor
  · rintro ⟨loop, least⟩
    refine ⟨⟨loop, loop⟩, fun s hs => ?_⟩
    rcases least s hs.1 with h | h
    · exact h
    · exact absurd hs.2 (by simpa using h)
  · rintro ⟨⟨loop, _⟩, least⟩
    refine ⟨loop, fun s hs => ?_⟩
    by_cases h : t ∈ g.reach s
    · exact .inl (least s ⟨hs, h⟩)
    · exact .inr (by simpa using h)

/-! ## §2 Cycles -/

/-- Looks for a path back to `start` inside a component, depth first, smaller nodes first.  A path
is kept in reverse; each node is put on a path once, which bounds `fuel`. -/
def findPath (g : Dag) (start : Target) (members : List Target) :
    Nat → List Target → List (Target × List Target) → Option (List Target)
  | 0, _, _ => none
  | _, _, [] => none
  | fuel + 1, visited, (node, path) :: stack =>
    let next := ((g.successors node).filter (members.contains ·)).mergeSort Target.le
    if start ∈ next then some ((start :: path).reverse)
    else
      let fresh := next.filter fun s => !visited.contains s
      findPath g start members fuel (fresh ++ visited)
        (fresh.map (fun s => (s, s :: path)) ++ stack)

/-- A cycle through `start`, which it begins and ends with. -/
def cycleFrom? (g : Dag) (start : Target) : Option (List Target) :=
  let members := g.component start
  g.findPath start members (members.length + 1) [] [(start, [start])]

/-- One cycle for each component that holds one, in the order of their smallest nodes. -/
def cycles (g : Dag) : List (List Target) :=
  ((g.nodes.filter g.isLeader).mergeSort Target.le).filterMap g.cycleFrom?

/-- The text of a cycle. -/
def formatCycle (cycle : List Target) : String := Text.join " > " (cycle.map Target.readable)

/-- A dependency that leads back to where it starts. -/
structure CycleError where
  cycle : List Target
  deriving DecidableEq, Repr, Inhabited

/-- The text of the error. -/
def CycleError.message (e : CycleError) : String :=
  "[E007] Circular dependency detected in chain: [" ++ formatCycle e.cycle ++ "]"

/-- Fails with the first cycle. -/
def validate (g : Dag) : Except CycleError Unit :=
  match g.cycles with
  | [] => .ok ()
  | cycle :: _ => .error ⟨cycle⟩

/-! ## §3 Order -/

/-- The nodes that a search has met, and among them those that it has put in order. -/
structure Sorting where
  met : List Target := []
  /-- A node comes here once everything that depends on it has come here. -/
  placed : List Target := []
  deriving DecidableEq, Repr, Inhabited

/-- Puts `t` in front of the nodes that are placed, after everything that depends on it.  Each node
is met once, which bounds `fuel`. -/
def place (g : Dag) : Nat → Sorting → Target → Sorting
  | 0, s, _ => s
  | fuel + 1, s, t =>
    if t ∈ s.met then s
    else
      let below := (g.successors t).foldl (g.place fuel) { s with met := t :: s.met }
      { below with placed := t :: below.placed }

/-- All nodes; without a cycle each stands before everything that depends on it. -/
def order (g : Dag) : List Target := (g.nodes.foldl (g.place (g.nodes.length + 1)) {}).placed

/-- Does every dependency stand before what depends on it? -/
def respects (g : Dag) (order : List Target) : Bool :=
  g.edges.all fun (dependency, dependent) => order.idxOf dependency < order.idxOf dependent

/-- All nodes, each before everything that depends on it, if they can be put in such an order. -/
def sorted? (g : Dag) : Option (List Target) :=
  if g.respects g.order then some g.order else none

/-- What is answered when the nodes are asked for in order: an order that was found, or else the
first cycle as an error. -/
def answer (g : Dag) (found : Option (List Target)) : Except CycleError (List Target) :=
  match found with
  | some order => .ok order
  | none => do
    g.validate
    return []

/-- All nodes, each before everything that depends on it, if there is no cycle. -/
def topologicalOrder (g : Dag) : Except CycleError (List Target) := g.answer g.sorted?

end Dag

end SqlWorkflow
