import SqlWorkflow.Graph.Dag
import Mathlib.Data.Finset.Card
import Mathlib.Logic.Relation

/-!
# Reachability in a graph of dependencies

The search behind `Dag.reach` is compared with the transitive closure of the edges.

- **§1** A graph that is built by adding nodes and dependencies is well formed: edges join nodes,
  and nothing is listed twice.
- **§2** What one call of the search adds to the nodes seen before (`Explored`): all that was asked
  for, with every new node its successors, and nothing that cannot be reached.
- **§3** `mem_reach_iff`: a node is found exactly if at least one edge leads to it.
-/

namespace SqlWorkflow.Dag

open Relation

/-- An edge leads from a dependency to what depends on it. -/
def Edge (g : Dag) (dependency dependent : Target) : Prop :=
  (dependency, dependent) ∈ g.edges

/-! ## §1 Well-formed graphs -/

/-- Every edge joins two nodes, and neither a node nor an edge is listed twice. -/
structure WellFormed (g : Dag) : Prop where
  source_mem : ∀ {a b : Target}, g.Edge a b → a ∈ g.nodes
  target_mem : ∀ {a b : Target}, g.Edge a b → b ∈ g.nodes
  nodes_nodup : g.nodes.Nodup
  edges_nodup : g.edges.Nodup

theorem wellFormed_empty : WellFormed {} where
  source_mem h := absurd h List.not_mem_nil
  target_mem h := absurd h List.not_mem_nil
  nodes_nodup := List.nodup_nil
  edges_nodup := List.nodup_nil

@[simp] theorem edges_addNode (g : Dag) (t : Target) : (g.addNode t).edges = g.edges := by
  unfold addNode
  split <;> rfl

theorem mem_nodes_addNode {g : Dag} {s t : Target} :
    s ∈ (g.addNode t).nodes ↔ s ∈ g.nodes ∨ s = t := by
  unfold addNode
  split
  · next ht => exact ⟨.inl, fun h => h.elim id (· ▸ ht)⟩
  · simp

theorem edge_addNode {g : Dag} {t a b : Target} : (g.addNode t).Edge a b ↔ g.Edge a b := by
  simp [Edge]

theorem WellFormed.addNode {g : Dag} (h : g.WellFormed) (t : Target) :
    (g.addNode t).WellFormed where
  source_mem hab := mem_nodes_addNode.2 (.inl (h.source_mem (edge_addNode.1 hab)))
  target_mem hab := mem_nodes_addNode.2 (.inl (h.target_mem (edge_addNode.1 hab)))
  nodes_nodup := by
    unfold Dag.addNode
    split
    · exact h.nodes_nodup
    · next ht => exact List.nodup_append'.2 ⟨h.nodes_nodup, by simp, by simpa using ht⟩
  edges_nodup := by simpa using h.edges_nodup

theorem mem_nodes_addDependency {g : Dag} {s dependent dependency : Target} :
    s ∈ (g.addDependency dependent dependency).nodes ↔
      s ∈ g.nodes ∨ s = dependency ∨ s = dependent := by
  have hnodes : (g.addDependency dependent dependency).nodes =
      ((g.addNode dependency).addNode dependent).nodes := by
    simp only [addDependency]
    split <;> rfl
  rw [hnodes, mem_nodes_addNode, mem_nodes_addNode, or_assoc]

theorem edge_addDependency {g : Dag} {dependent dependency a b : Target} :
    (g.addDependency dependent dependency).Edge a b ↔
      g.Edge a b ∨ (a = dependency ∧ b = dependent) := by
  simp only [addDependency, edges_addNode, Edge]
  split
  · next hold =>
    rw [edges_addNode, edges_addNode]
    constructor
    · exact .inl
    · rintro (h | ⟨rfl, rfl⟩)
      · exact h
      · exact hold
  · simp

theorem WellFormed.addDependency {g : Dag} (h : g.WellFormed) (dependent dependency : Target) :
    (g.addDependency dependent dependency).WellFormed where
  source_mem hab := by
    rcases edge_addDependency.1 hab with hold | ⟨rfl, -⟩
    · exact mem_nodes_addDependency.2 (.inl (h.source_mem hold))
    · exact mem_nodes_addDependency.2 (.inr (.inl rfl))
  target_mem hab := by
    rcases edge_addDependency.1 hab with hold | ⟨-, rfl⟩
    · exact mem_nodes_addDependency.2 (.inl (h.target_mem hold))
    · exact mem_nodes_addDependency.2 (.inr (.inr rfl))
  nodes_nodup := by
    have hnodes := ((h.addNode dependency).addNode dependent).nodes_nodup
    simp only [Dag.addDependency]
    split <;> exact hnodes
  edges_nodup := by
    simp only [Dag.addDependency, edges_addNode]
    split
    · simpa using h.edges_nodup
    · next hnew => exact List.nodup_append'.2 ⟨h.edges_nodup, by simp, by simpa using hnew⟩

@[simp] theorem mem_successors_iff {g : Dag} {a b : Target} :
    b ∈ g.successors a ↔ g.Edge a b := by
  simp only [successors, List.mem_filterMap, Prod.exists, Edge]
  constructor
  · rintro ⟨x, y, hxy, h⟩
    split at h
    · next hx => exact Option.some.inj h ▸ hx ▸ hxy
    · cases h
  · exact fun h => ⟨a, b, h, by simp⟩

theorem WellFormed.successors_nodup {g : Dag} (h : g.WellFormed) (a : Target) :
    (g.successors a).Nodup := by
  refine h.edges_nodup.filterMap fun p q t hp hq => ?_
  -- Both edges start at `a` and end at `t`.
  simp only [Option.mem_def, Option.ite_none_right_eq_some, Option.some.injEq] at hp hq
  exact Prod.ext (hp.1.trans hq.1.symm) (hp.2.trans hq.2.symm)

/-! ## §2 What a search adds -/

/-- `found` is what a search from the nodes `starts` makes of the nodes `seen` before it. -/
structure Explored (g : Dag) (seen starts found : List Target) : Prop where
  keeps : seen ⊆ found
  visits : starts ⊆ found
  /-- New nodes are found together with their successors. -/
  closed : ∀ a ∈ found, a ∉ seen → ∀ b, g.Edge a b → b ∈ found
  reached : ∀ a ∈ found, a ∈ seen ∨ ∃ s ∈ starts, ReflTransGen g.Edge s a
  nodup : seen.Nodup → found.Nodup

namespace Explored

variable {g : Dag} {seen mid starts found : List Target} {t : Target}

theorem nil : Explored g seen [] seen where
  keeps := List.Subset.refl _
  visits := List.nil_subset _
  closed _ ha hnew := absurd ha hnew
  reached _ ha := .inl ha
  nodup := id

/-- A node that has been seen adds nothing. -/
theorem seen_before (ht : t ∈ seen) : Explored g seen [t] seen where
  keeps := List.Subset.refl _
  visits := by simpa using ht
  closed _ ha hnew := absurd ha hnew
  reached _ ha := .inl ha
  nodup := id

/-- A new node adds itself and what its successors add. -/
theorem of_new (ht : t ∉ seen) (h : Explored g (t :: seen) (g.successors t) found) :
    Explored g seen [t] found where
  keeps _ ha := h.keeps (List.mem_cons_of_mem _ ha)
  visits := by simpa using h.keeps List.mem_cons_self
  closed a ha hnew b hab := by
    -- The node itself is new too; its successors are what was searched for.
    by_cases hat : a = t
    · exact h.visits (mem_successors_iff.2 (hat ▸ hab))
    · exact h.closed a ha (by simp [hat, hnew]) b hab
  reached a ha := by
    rcases h.reached a ha with hseen | ⟨s, hs, hsa⟩
    · rcases List.mem_cons.1 hseen with rfl | hseen
      · exact .inr ⟨a, List.mem_singleton_self a, .refl⟩
      · exact .inl hseen
    · exact .inr ⟨t, List.mem_singleton_self t, .head (mem_successors_iff.1 hs) hsa⟩
  nodup hseen := h.nodup (List.nodup_cons.2 ⟨ht, hseen⟩)

/-- Searches add up. -/
theorem cons (first : Explored g seen [t] mid) (rest : Explored g mid starts found) :
    Explored g seen (t :: starts) found where
  keeps _ ha := rest.keeps (first.keeps ha)
  visits := List.cons_subset.2 ⟨rest.keeps (first.visits List.mem_cons_self), rest.visits⟩
  closed a ha hnew b hab := by
    -- A node is new to the first search or to those after it.
    by_cases hmid : a ∈ mid
    · exact rest.keeps (first.closed a hmid hnew b hab)
    · exact rest.closed a ha hmid b hab
  reached a ha := by
    rcases rest.reached a ha with hmid | ⟨s, hs, hsa⟩
    · rcases first.reached a hmid with hseen | ⟨s, hs, hsa⟩
      · exact .inl hseen
      · exact .inr ⟨s, List.mem_cons.2 (.inl (List.mem_singleton.1 hs)), hsa⟩
    · exact .inr ⟨s, List.mem_cons_of_mem _ hs, hsa⟩
  nodup hseen := rest.nodup (first.nodup hseen)

/-- A search from several nodes, one after the other. -/
theorem foldl {search : List Target → Target → List Target}
    (h : ∀ s ∈ starts, ∀ seen', seen ⊆ seen' → Explored g seen' [s] (search seen' s)) :
    Explored g seen starts (starts.foldl search seen) := by
  induction starts generalizing seen with
  | nil => exact nil
  | cons s starts ih =>
    -- Later searches start from more than `seen`, so the hypothesis is about every larger list.
    have first := h s List.mem_cons_self seen (List.Subset.refl _)
    refine first.cons (ih fun s' hs' seen' hsub => ?_)
    exact h s' (List.mem_cons_of_mem _ hs') seen' fun _ ha => hsub (first.keeps ha)

end Explored

/-- The number of nodes that have not been seen. -/
def unseen (g : Dag) (seen : List Target) : Nat :=
  (g.nodes.toFinset \ seen.toFinset).card

theorem unseen_le_length (g : Dag) (seen : List Target) : g.unseen seen ≤ g.nodes.length :=
  (Finset.card_le_card Finset.sdiff_subset).trans (List.toFinset_card_le _)

theorem unseen_mono {g : Dag} {seen seen' : List Target} (h : seen ⊆ seen') :
    g.unseen seen' ≤ g.unseen seen :=
  Finset.card_le_card (Finset.sdiff_subset_sdiff (Finset.Subset.refl _)
    fun _ ha => List.mem_toFinset.2 (h (List.mem_toFinset.1 ha)))

theorem unseen_cons_lt {g : Dag} {seen : List Target} {t : Target} (hnode : t ∈ g.nodes)
    (hnew : t ∉ seen) : g.unseen (t :: seen) < g.unseen seen := by
  -- The node itself is what is seen now and was not before.
  refine Finset.card_lt_card (Finset.ssubset_iff_of_subset ?_ |>.2 ⟨t, ?_, ?_⟩)
  · exact Finset.sdiff_subset_sdiff (Finset.Subset.refl _) (by simp)
  · simp [hnode, hnew]
  · simp

/-- The search sees all that there is to see, if there is fuel for every unseen node. -/
theorem WellFormed.explored {g : Dag} (h : g.WellFormed) {fuel : Nat} {seen : List Target}
    {t : Target} (hnode : t ∈ g.nodes) (hfuel : g.unseen seen < fuel) :
    Explored g seen [t] (g.explore fuel seen t) := by
  induction fuel generalizing seen t with
  | zero => exact absurd hfuel (Nat.not_lt_zero _)
  | succ fuel ih =>
    rw [explore]
    split
    · next hold => exact .seen_before hold
    · next hnew =>
      refine .of_new hnew (.foldl fun s hs seen' hsub => ?_)
      have hlt := unseen_cons_lt hnode hnew
      have hle := unseen_mono (g := g) hsub
      exact ih (h.target_mem (mem_successors_iff.1 hs)) (by omega)

/-! ## §3 The nodes that can be reached -/

theorem WellFormed.explored_reach {g : Dag} (h : g.WellFormed) (t : Target) :
    Explored g [] (g.successors t) (g.reach t) := by
  refine .foldl fun s hs seen' _ => ?_
  -- There is fuel for every node of the graph, whatever has been seen.
  refine h.explored (h.target_mem (mem_successors_iff.1 hs)) ?_
  exact Nat.lt_succ_of_le (g.unseen_le_length seen')

theorem WellFormed.reach_nodup {g : Dag} (h : g.WellFormed) (t : Target) : (g.reach t).Nodup :=
  (h.explored_reach t).nodup List.nodup_nil

/-- The search finds exactly the nodes to which at least one edge leads. -/
theorem WellFormed.mem_reach_iff {g : Dag} (h : g.WellFormed) {t a : Target} :
    a ∈ g.reach t ↔ TransGen g.Edge t a := by
  have hreach := h.explored_reach t
  constructor
  · intro ha
    rcases hreach.reached a ha with hseen | ⟨s, hs, hsa⟩
    · exact absurd hseen List.not_mem_nil
    · exact TransGen.head' (mem_successors_iff.1 hs) hsa
  · intro hta
    -- The nodes found are closed under edges, since nothing was seen before the search.
    induction hta with
    | single hta => exact hreach.visits (mem_successors_iff.2 hta)
    | tail _ hab ih => exact hreach.closed _ ih List.not_mem_nil _ hab

end SqlWorkflow.Dag
