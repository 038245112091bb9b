import SqlWorkflow.Proofs.Graph.ExactCycles

/-!
# Graphs with other names

Two graphs may differ in nothing but the names of their nodes and the order in which nodes and
edges are listed (`Renames`).  Then the components of one graph are those of the other under their
new names, and equally many cycles are reported (`Renames.length_cycles_eq`).

- **§1** Renamings, and what leads to what under them.
- **§2** Components, and how many cycles are reported.
-/

namespace SqlWorkflow.Dag

open Relation

variable {g g' : Dag} {f : Target → Target} {a b : Target}

/-! ## §1 Renamings -/

/-- The second graph is the first one with its nodes renamed: different nodes get different names,
and edges join the same nodes. -/
structure Renames (f : Target → Target) (g g' : Dag) : Prop where
  nodes : (g.nodes.map f).Perm g'.nodes
  injOn : ∀ a ∈ g.nodes, ∀ b ∈ g.nodes, f a = f b → a = b
  edge_iff : ∀ a ∈ g.nodes, ∀ b ∈ g.nodes, g'.Edge (f a) (f b) ↔ g.Edge a b

namespace Renames

theorem mem_nodes (h : Renames f g g') (ha : a ∈ g.nodes) : f a ∈ g'.nodes :=
  h.nodes.mem_iff.1 (List.mem_map_of_mem ha)

/-- What leads to what does so under the new names. -/
theorem reflTransGen (h : Renames f g g') (hwf : g.WellFormed)
    (hab : ReflTransGen g.Edge a b) : ReflTransGen g'.Edge (f a) (f b) := by
  induction hab with
  | refl => exact .refl
  | tail _ hbc ih =>
    exact ih.tail ((h.edge_iff _ (hwf.source_mem hbc) _ (hwf.target_mem hbc)).2 hbc)

/-- Nothing else leads to anything: what a new name leads to is a new name of something. -/
theorem exists_of_reflTransGen (h : Renames f g g') (hwf' : g'.WellFormed) (ha : a ∈ g.nodes)
    {t : Target} (hat : ReflTransGen g'.Edge (f a) t) :
    ∃ b ∈ g.nodes, f b = t ∧ ReflTransGen g.Edge a b := by
  induction hat with
  | refl => exact ⟨a, ha, rfl, .refl⟩
  | tail _ hst ih =>
    obtain ⟨b, hb, rfl, hab⟩ := ih
    -- An edge ends at a node, and every node of the second graph has an old name.
    obtain ⟨c, hc, rfl⟩ := List.mem_map.1 (h.nodes.mem_iff.2 (hwf'.target_mem hst))
    exact ⟨c, hc, rfl, hab.tail ((h.edge_iff b hb c hc).1 hst)⟩

theorem reflTransGen_iff (h : Renames f g g') (hwf : g.WellFormed) (hwf' : g'.WellFormed)
    (ha : a ∈ g.nodes) (hb : b ∈ g.nodes) :
    ReflTransGen g'.Edge (f a) (f b) ↔ ReflTransGen g.Edge a b := by
  constructor
  · intro hab
    obtain ⟨c, hc, hcb, hac⟩ := h.exists_of_reflTransGen hwf' ha hab
    exact h.injOn c hc b hb hcb ▸ hac
  · exact h.reflTransGen hwf

/-! ## §2 Components -/

variable {components : List (List Target)} {c : List Target}

/-- The components under their new names are the components of the second graph. -/
theorem listsComponents (h : Renames f g g') (hwf : g.WellFormed) (hwf' : g'.WellFormed)
    (hlist : g.ListsComponents components) : g'.ListsComponents (components.map (List.map f)) where
  perm := by
    rw [← List.map_flatten]
    exact (hlist.perm.map f).trans h.nodes
  nil_not_mem := by
    intro hnil
    obtain ⟨c, hc, hempty⟩ := List.mem_map.1 hnil
    rw [List.map_eq_nil_iff.1 hempty] at hc
    exact hlist.nil_not_mem hc
  mem_iff := by
    intro _ hmem _ hmem' t
    obtain ⟨c, hc, rfl⟩ := List.mem_map.1 hmem
    obtain ⟨a, ha, rfl⟩ := List.mem_map.1 hmem'
    have hnode := hlist.mem_nodes hc ha
    constructor
    · intro ht
      obtain ⟨b, hb, rfl⟩ := List.mem_map.1 ht
      have hboth := (hlist.mem_iff c hc a ha b).1 hb
      exact ⟨h.reflTransGen hwf hboth.1, h.reflTransGen hwf hboth.2⟩
    · rintro ⟨hto, hback⟩
      -- A path that starts at a renamed node leads over renamed nodes only.
      obtain ⟨b, hb, rfl, hab⟩ := h.exists_of_reflTransGen hwf' hnode hto
      have hba := (h.reflTransGen_iff hwf hwf' hb hnode).1 hback
      exact List.mem_map_of_mem ((hlist.mem_iff c hc a ha b).2 ⟨hab, hba⟩)

/-- A component holds a cycle under its new names if it holds one. -/
theorem holdsCycle_iff (h : Renames f g g') (hlist : g.ListsComponents components)
    (hc : c ∈ components) : g'.HoldsCycle (c.map f) ↔ g.HoldsCycle c := by
  simp only [HoldsCycle, List.length_map, List.mem_map, exists_exists_and_eq_and]
  apply or_congr_right
  refine exists_congr fun t => and_congr_right fun ht => ?_
  have hnode := hlist.mem_nodes hc ht
  exact h.edge_iff t hnode t hnode

end Renames

/-- As many cycles are reported as there are components that hold one. -/
theorem ListsComponents.length_cycles (hwf : g.WellFormed) {components : List (List Target)}
    (hlist : g.ListsComponents components) :
    g.cycles.length = (components.filter (g.HoldsCycle ·)).length := by
  rw [← hlist.cyclesIn_eq hwf, cyclesIn, List.length_mergeSort, filterMap_cycleIn?]
  have hcycles : List.Forall₂ g.IsCycleOf (components.filter (g.HoldsCycle ·))
      ((components.filter (g.HoldsCycle ·)).filterMap g.cycleIn?) := by
    apply forall₂_filterMap
    intro c hc
    rw [List.mem_filter, decide_eq_true_eq] at hc
    exact hlist.isCycleOf_cycleIn? hwf hc.1 hc.2
  exact hcycles.length_eq.symm

/-- Names do not matter to the number of cycles that are reported. -/
theorem Renames.length_cycles_eq (h : Renames f g g') (hwf : g.WellFormed)
    (hwf' : g'.WellFormed) : g'.cycles.length = g.cycles.length := by
  have hlist := hwf.listsComponents_components
  rw [hlist.length_cycles hwf, (h.listsComponents hwf hwf' hlist).length_cycles hwf',
    List.filter_map, List.length_map]
  congr 1
  apply List.filter_congr
  intro c hc
  simp [h.holdsCycle_iff hlist hc]

end SqlWorkflow.Dag
