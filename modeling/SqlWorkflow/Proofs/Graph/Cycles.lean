import SqlWorkflow.Proofs.Graph.Reachability
import SqlWorkflow.Proofs.Target.Order

/-!
# Cycles of a graph of dependencies

A graph in which some node leads back to itself is reported to have a cycle, and what is reported
depends only on which nodes and edges there are.

- **§1** The component of a node on a cycle, and its smallest node.
- **§2** The search for a path back to its start finds one: a node off the stack has put all its
  successors on the list of visited nodes (`Scouted`), so a stack that runs empty would have
  followed the cycle to its end.
- **§3** `acyclic_of_cycles_eq_nil`: no report, no cycle.  And no cycle, no report, so a graph is
  valid exactly if it has no cycle (`validate_eq_ok_iff`).
- **§4** `cycles_congr`: two arrangements of one graph have the same cycles.
-/

namespace SqlWorkflow.Dag

open Relation

variable {g g' : Dag} {start t : Target}

/-! ## §1 Components -/

/-- A component holds the nodes that lead to `t` and back. -/
theorem WellFormed.mem_component_iff (h : g.WellFormed) {s : Target} :
    s ∈ g.component t ↔ TransGen g.Edge t s ∧ TransGen g.Edge s t := by
  simp [component, h.mem_reach_iff]

/-- The nodes of a component have one component. -/
theorem WellFormed.mem_component_congr (h : g.WellFormed) {s u : Target}
    (hs : s ∈ g.component t) : u ∈ g.component s ↔ u ∈ g.component t := by
  obtain ⟨hto, hback⟩ := h.mem_component_iff.1 hs
  rw [h.mem_component_iff, h.mem_component_iff]
  constructor
  · rintro ⟨hsu, hus⟩
    exact ⟨hto.trans hsu, hus.trans hback⟩
  · rintro ⟨htu, hut⟩
    exact ⟨hback.trans htu, hut.trans hto⟩

theorem WellFormed.component_nodup (h : g.WellFormed) (t : Target) : (g.component t).Nodup :=
  (h.reach_nodup t).filter _

/-- Every nonempty list of targets has a smallest member. -/
theorem exists_least {targets : List Target} (h : targets ≠ []) :
    ∃ least ∈ targets, ∀ s ∈ targets, least.le s = true := by
  have hsorted := Target.pairwise_mergeSort targets
  have hperm := List.mergeSort_perm targets Target.le
  cases hsort : targets.mergeSort Target.le with
  | nil => exact absurd (hsort ▸ hperm).nil_eq.symm h
  | cons least rest =>
    rw [hsort] at hsorted hperm
    have hmem : ∀ s, s ∈ targets ↔ s = least ∨ s ∈ rest := fun s => by
      rw [← hperm.mem_iff, List.mem_cons]
    refine ⟨least, (hmem least).2 (.inl rfl), fun s hs => ?_⟩
    rcases (hmem s).1 hs with rfl | hrest
    · exact Target.le_refl s
    · exact List.rel_of_pairwise_cons hsorted hrest

/-- A node that leads back to itself has a leader in its component. -/
theorem WellFormed.exists_leader (h : g.WellFormed) (hcycle : TransGen g.Edge t t) :
    ∃ leader ∈ g.component t, g.isLeader leader = true := by
  have hself : t ∈ g.component t := h.mem_component_iff.2 ⟨hcycle, hcycle⟩
  obtain ⟨leader, hleader, hleast⟩ := exists_least (List.ne_nil_of_mem hself)
  refine ⟨leader, hleader, isLeader_iff.2 ⟨?_, fun s hs => ?_⟩⟩
  · exact (h.mem_component_congr hleader).2 hleader
  · exact hleast s ((h.mem_component_congr hleader).1 hs)

/-! ## §2 The search for a path -/

/-- The successors of a node inside a component, smallest first. -/
def inside (g : Dag) (members : List Target) (node : Target) : List Target :=
  ((g.successors node).filter (members.contains ·)).mergeSort Target.le

theorem mem_inside_iff {members : List Target} {node s : Target} :
    s ∈ g.inside members node ↔ g.Edge node s ∧ s ∈ members := by
  simp [inside]

theorem WellFormed.inside_nodup (h : g.WellFormed) (members : List Target) (node : Target) :
    (g.inside members node).Nodup :=
  (List.mergeSort_perm _ _).nodup_iff.2 ((h.successors_nodup node).filter _)

theorem findPath_cons (g : Dag) (start : Target) (members : List Target) (fuel : Nat)
    (visited : List Target) (node : Target) (path : List Target)
    (stack : List (Target × List Target)) :
    g.findPath start members (fuel + 1) visited ((node, path) :: stack) =
      if start ∈ g.inside members node then some ((start :: path).reverse)
      else
        let fresh := (g.inside members node).filter fun s => !visited.contains s
        g.findPath start members fuel (fresh ++ visited)
          (fresh.map (fun s => (s, s :: path)) ++ stack) :=
  rfl

/-- The search has followed all edges, inside the component, of the nodes it has met and that are
not on its stack any more, without meeting `start` again. -/
def Scouted (g : Dag) (start : Target) (members visited pending : List Target) : Prop :=
  ∀ a ∈ start :: visited, a ∉ pending → ∀ b ∈ g.inside members a, b ∈ visited ∧ b ≠ start

/-- Taking a node off the stack and putting its unvisited successors there keeps the search
complete. -/
theorem Scouted.step {members visited pending fresh : List Target} {node : Target}
    (h : g.Scouted start members visited (node :: pending))
    (hstart : start ∉ g.inside members node)
    (hfresh : ∀ s, s ∈ fresh ↔ s ∈ g.inside members node ∧ s ∉ visited) :
    g.Scouted start members (fresh ++ visited) (fresh ++ pending) := by
  intro a ha hpending b hb
  simp only [List.mem_append, not_or] at hpending
  -- The node that was taken off the stack has now put its successors there; nothing changes for
  -- others that are off it.
  by_cases hnode : a = node
  · subst hnode
    refine ⟨?_, fun hb' => hstart (hb' ▸ hb)⟩
    by_cases hvisited : b ∈ visited
    · exact List.mem_append_right _ hvisited
    · exact List.mem_append_left _ ((hfresh b).2 ⟨hb, hvisited⟩)
  · have hold : a ∈ start :: visited := by
      rcases List.mem_cons.1 ha with rfl | ha
      · exact List.mem_cons_self
      · exact List.mem_cons_of_mem _ ((List.mem_append.1 ha).resolve_left hpending.1)
    obtain ⟨hb₁, hb₂⟩ := h a hold (by simp [hnode, hpending.2]) b hb
    exact ⟨List.mem_append_right _ hb₁, hb₂⟩

/-- A search whose stack is empty has met everything that `start` leads to inside the component,
but not `start` itself. -/
theorem Scouted.exhausted {members visited : List Target} (h : g.Scouted start members visited [])
    {b : Target} (hb : TransGen (fun a b => b ∈ g.inside members a) start b) :
    b ∈ visited ∧ b ≠ start := by
  induction hb with
  | single hb => exact h start List.mem_cons_self List.not_mem_nil _ hb
  | tail _ hbc ih => exact h _ (List.mem_cons_of_mem _ ih.1) List.not_mem_nil _ hbc

/-- The number of members that have not been visited. -/
def unvisited (start : Target) (members visited : List Target) : Nat :=
  (members.toFinset \ (start :: visited).toFinset).card

theorem unvisited_append {members visited fresh : List Target} (hnodup : fresh.Nodup)
    (hfresh : ∀ s ∈ fresh, s ∈ members ∧ s ∉ start :: visited) :
    fresh.length + unvisited start members (fresh ++ visited) =
      unvisited start members visited := by
  have hsub : fresh.toFinset ⊆ members.toFinset \ (start :: visited).toFinset := by
    intro s hs
    obtain ⟨hmember, hnew⟩ := hfresh s (List.mem_toFinset.1 hs)
    exact Finset.mem_sdiff.2 ⟨List.mem_toFinset.2 hmember, fun h => hnew (List.mem_toFinset.1 h)⟩
  have hcard := Finset.card_sdiff_add_card_eq_card hsub
  -- Taking the fresh nodes out afterwards is taking them out from the beginning.
  have hset : members.toFinset \ (start :: (fresh ++ visited)).toFinset =
      (members.toFinset \ (start :: visited).toFinset) \ fresh.toFinset := by
    ext s
    simp only [List.toFinset_cons, List.toFinset_append, Finset.mem_sdiff, Finset.mem_insert,
      Finset.mem_union, List.mem_toFinset]
    tauto
  rw [List.toFinset_card_of_nodup hnodup] at hcard
  unfold unvisited
  rw [hset]
  omega

/-- A search that has followed all edges so far finds a path back to `start`, if there is one and
there is fuel for the nodes on the stack and the unvisited ones. -/
theorem WellFormed.findPath_isSome (h : g.WellFormed) {members : List Target}
    (hcycle : TransGen (fun a b => b ∈ g.inside members a) start start) {fuel : Nat}
    {visited : List Target} {stack : List (Target × List Target)}
    (hscouted : g.Scouted start members visited (stack.map (·.1)))
    (hfuel : stack.length + unvisited start members visited < fuel) :
    (g.findPath start members fuel visited stack).isSome := by
  induction fuel generalizing visited stack with
  | zero => exact absurd hfuel (Nat.not_lt_zero _)
  | succ fuel ih =>
    cases stack with
    -- An empty stack would mean that the cycle was followed without meeting its start.
    | nil => exact absurd rfl (hscouted.exhausted hcycle).2
    | cons entry stack =>
      obtain ⟨node, path⟩ := entry
      rw [findPath_cons]
      split
      · rfl
      · next hstart =>
        dsimp only
        have hinside := (h.inside_nodup members node).filter fun s => !visited.contains s
        have hfresh : ∀ s, s ∈ (g.inside members node).filter (fun s => !visited.contains s) ↔
            s ∈ g.inside members node ∧ s ∉ visited := by simp
        generalize (g.inside members node).filter (fun s => !visited.contains s) = fresh
          at hinside hfresh ⊢
        -- Every node that goes onto the stack is one unvisited node less.
        have hcount : fresh.length + unvisited start members (fresh ++ visited) =
            unvisited start members visited := by
          refine unvisited_append hinside fun s hs => ?_
          obtain ⟨hsucc, hnew⟩ := (hfresh s).1 hs
          refine ⟨(mem_inside_iff.1 hsucc).2, ?_⟩
          simp only [List.mem_cons, not_or]
          exact ⟨fun hs' => hstart (hs' ▸ hsucc), hnew⟩
        refine ih ?_ ?_
        · simpa [Function.comp_def] using hscouted.step hstart hfresh
        · simp only [List.length_append, List.length_map, List.length_cons] at hfuel ⊢
          omega

/-- A way from `start` that can be continued back to `start` stays inside the component. -/
theorem WellFormed.transGen_inside (h : g.WellFormed) {b : Target} (hb : TransGen g.Edge start b)
    (hback : ReflTransGen g.Edge b start) :
    TransGen (fun a b => b ∈ g.inside (g.component start) a) start b := by
  -- Every node on the way leads back, so it is in the component.
  have hmember : ∀ c, TransGen g.Edge start c → ReflTransGen g.Edge c start →
      c ∈ g.component start := by
    intro c hc hc'
    refine h.mem_component_iff.2 ⟨hc, ?_⟩
    rcases reflTransGen_iff_eq_or_transGen.1 hc' with rfl | hc'
    · exact hc
    · exact hc'
  induction hb with
  | single hab => exact .single (mem_inside_iff.2 ⟨hab, hmember _ (.single hab) hback⟩)
  | tail hab hbc ih =>
    exact (ih (.head hbc hback)).tail (mem_inside_iff.2 ⟨hbc, hmember _ (hab.tail hbc) hback⟩)

/-- A leader has a cycle to report. -/
theorem WellFormed.cycleFrom?_isSome (h : g.WellFormed) (hleader : g.isLeader start = true) :
    (g.cycleFrom? start).isSome := by
  have hself := (h.mem_component_iff.1 (isLeader_iff.1 hleader).1).1
  refine h.findPath_isSome (h.transGen_inside hself .refl) ?_ ?_
  · intro a ha hpending
    simp_all
  · have hcard : unvisited start (g.component start) [] < (g.component start).toFinset.card := by
      refine Finset.card_lt_card (Finset.ssubset_iff_of_subset Finset.sdiff_subset |>.2 ?_)
      exact ⟨start, List.mem_toFinset.2 (isLeader_iff.1 hleader).1, by simp⟩
    have hle := List.toFinset_card_le (g.component start)
    simp only [List.length_singleton]
    omega

/-! ## §3 No cycle goes unreported -/

/-- No node leads back to itself. -/
def Acyclic (g : Dag) : Prop := ∀ t, ¬ TransGen g.Edge t t

/-- For a node that leads back to itself a cycle is reported, from the leader of its component. -/
theorem WellFormed.exists_mem_cycles (h : g.WellFormed) (hcycle : TransGen g.Edge t t) :
    ∃ leader ∈ g.component t, g.isLeader leader = true ∧
      ∃ cycle ∈ g.cycles, g.cycleFrom? leader = some cycle := by
  obtain ⟨leader, hcomponent, hleader⟩ := h.exists_leader hcycle
  obtain ⟨cycle, hfound⟩ := Option.isSome_iff_exists.1 (h.cycleFrom?_isSome hleader)
  have hnode : leader ∈ g.nodes := by
    obtain ⟨a, ha, -⟩ := TransGen.head'_iff.1 (h.mem_component_iff.1 hcomponent).2
    exact h.source_mem ha
  refine ⟨leader, hcomponent, hleader, cycle, ?_, hfound⟩
  apply List.mem_filterMap.2 ⟨leader, ?_, hfound⟩
  simp [hnode, hleader]

/-- If no cycle is reported, no node leads back to itself. -/
theorem WellFormed.acyclic_of_cycles_eq_nil (h : g.WellFormed) (hcycles : g.cycles = []) :
    g.Acyclic := by
  intro t hcycle
  obtain ⟨_, -, -, cycle, hreported, -⟩ := h.exists_mem_cycles hcycle
  rw [hcycles] at hreported
  exact List.not_mem_nil hreported

/-- Only a node that leads back to itself is the leader of its component. -/
theorem WellFormed.cycles_eq_nil_of_acyclic (h : g.WellFormed) (hacyclic : g.Acyclic) :
    g.cycles = [] := by
  have hnone : g.nodes.filter g.isLeader = [] := by
    rw [List.filter_eq_nil_iff]
    intro t _ hleader
    exact hacyclic t (h.mem_component_iff.1 (isLeader_iff.1 hleader).1).1
  simp [cycles, hnone]

/-- A graph is valid exactly if no node leads back to itself. -/
theorem WellFormed.validate_eq_ok_iff (h : g.WellFormed) :
    g.validate = .ok () ↔ g.Acyclic := by
  unfold validate
  split
  · next hnil => simpa using h.acyclic_of_cycles_eq_nil hnil
  · next hcons =>
    constructor
    · intro herror
      cases herror
    · intro hacyclic
      rw [h.cycles_eq_nil_of_acyclic hacyclic] at hcons
      cases hcons

/-! ## §4 Arrangements of one graph -/

/-- Two graphs with the same nodes and the same edges, in any order. -/
structure SameGraph (g g' : Dag) : Prop where
  nodes : g.nodes.Perm g'.nodes
  edges : g.edges.Perm g'.edges

namespace SameGraph

theorem refl (g : Dag) : SameGraph g g :=
  ⟨.refl _, .refl _⟩

theorem edge_iff (h : SameGraph g g') {a b : Target} : g.Edge a b ↔ g'.Edge a b :=
  h.edges.mem_iff

theorem edge_eq (h : SameGraph g g') : g.Edge = g'.Edge :=
  funext fun _ => funext fun _ => propext h.edge_iff

theorem component_perm (h : SameGraph g g') (hg : g.WellFormed) (hg' : g'.WellFormed)
    (t : Target) : (g.component t).Perm (g'.component t) := by
  -- The searches may meet the nodes in different orders, but each node once.
  refine (List.perm_ext_iff_of_nodup (hg.component_nodup t) (hg'.component_nodup t)).2 fun a => ?_
  rw [hg.mem_component_iff, hg'.mem_component_iff, h.edge_eq]

theorem isLeader_eq (h : SameGraph g g') (hg : g.WellFormed) (hg' : g'.WellFormed) :
    g.isLeader = g'.isLeader := by
  funext t
  have hmem := fun s => (h.component_perm hg hg' t).mem_iff (a := s)
  rw [Bool.eq_iff_iff, isLeader_iff, isLeader_iff]
  simp only [hmem]

theorem inside_eq (h : SameGraph g g') {members members' : List Target}
    (hmembers : ∀ s, s ∈ members ↔ s ∈ members') (node : Target) :
    g.inside members node = g'.inside members' node := by
  have hcontains : (members.contains ·) = (members'.contains ·) := by
    funext s
    rw [Bool.eq_iff_iff, List.contains_iff_mem, List.contains_iff_mem, hmembers]
  unfold inside
  rw [hcontains]
  exact Target.mergeSort_eq_of_perm ((h.edges.filterMap _).filter _)

theorem findPath_eq (h : SameGraph g g') {members members' : List Target}
    (hmembers : ∀ s, s ∈ members ↔ s ∈ members') (start : Target) (fuel : Nat)
    (visited : List Target) (stack : List (Target × List Target)) :
    g.findPath start members fuel visited stack =
      g'.findPath start members' fuel visited stack := by
  induction fuel generalizing visited stack with
  | zero => rfl
  | succ fuel ih =>
    cases stack with
    | nil => rfl
    | cons entry stack =>
      rw [findPath_cons, findPath_cons, h.inside_eq hmembers]
      simp only [ih]

theorem cycleFrom?_eq (h : SameGraph g g') (hg : g.WellFormed) (hg' : g'.WellFormed) :
    g.cycleFrom? = g'.cycleFrom? := by
  funext start
  have hperm := h.component_perm hg hg' start
  simp only [cycleFrom?, hperm.length_eq]
  exact h.findPath_eq (fun s => hperm.mem_iff) start _ _ _

/-- The cycles that are reported depend only on which nodes and edges there are. -/
theorem cycles_congr (h : SameGraph g g') (hg : g.WellFormed) (hg' : g'.WellFormed) :
    g.cycles = g'.cycles := by
  unfold cycles
  rw [h.cycleFrom?_eq hg hg', h.isLeader_eq hg hg']
  rw [Target.mergeSort_eq_of_perm (h.nodes.filter g'.isLeader)]

end SameGraph

end SqlWorkflow.Dag
