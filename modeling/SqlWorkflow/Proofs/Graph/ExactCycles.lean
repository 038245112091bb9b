import SqlWorkflow.Proofs.Graph.Construction
import Mathlib.Data.List.Chain

/-!
# What is reported for a component

The nodes of a graph fall into components, in each of which every node leads to every other one.  A
component with at least two nodes, or with a node that depends on itself, holds a cycle, and exactly
one cycle is reported for it.

- **§1** The search for a path back to its start: the path that it returns is a cycle inside the
  component (`IsCycleOf`).
- **§2** Lists of all components (`ListsComponents`), one of which can be computed
  (`listsComponents_components`).
- **§3** One cycle for each component of such a list, sorted (`cyclesIn`), is what is reported,
  however the components and the nodes in them are listed.
- **§4** The main statement, `cycles_build`.
-/

namespace SqlWorkflow.Dag

open Relation

variable {g : Dag} {start node s t : Target} {members visited path cycle : List Target}

/-! ## §1 Paths back to the start -/

/-- A path from `start` to `node`, kept in reverse: it follows edges inside the component and
passes each node once.  Its nodes have been visited. -/
structure Walk (g : Dag) (start : Target) (members visited : List Target) (node : Target)
    (path : List Target) : Prop where
  head : path.head? = some node
  last : path.getLast? = some start
  nodup : path.Nodup
  chain : path.IsChain fun b a => g.Edge a b
  inside : ∀ t ∈ path, t ∈ members
  visited : ∀ t ∈ path, t = start ∨ t ∈ visited

theorem Walk.single (h : start ∈ members) : Walk g start members visited start [start] where
  head := rfl
  last := rfl
  nodup := by simp
  chain := by simp
  inside := by simpa using h
  visited := by simp

theorem Walk.mono (h : Walk g start members visited node path) {visited' : List Target}
    (hsub : visited ⊆ visited') : Walk g start members visited' node path :=
  { h with visited := fun t ht => (h.visited t ht).imp_right fun hv => hsub hv }

/-- A walk goes on to a node that it has not passed. -/
theorem Walk.step (h : Walk g start members visited node path) (hs : s ∈ g.inside members node)
    (hstart : s ≠ start) (hnew : s ∉ visited) :
    Walk g start members (s :: visited) s (s :: path) where
  head := rfl
  last := by
    have hne : path ≠ [] := by
      rintro rfl
      cases h.head
    rw [List.getLast?_cons_of_ne_nil hne, h.last]
  nodup := by
    apply List.nodup_cons.2 ⟨?_, h.nodup⟩
    intro hpath
    rcases h.visited s hpath with heq | hvisited
    · exact hstart heq
    · exact hnew hvisited
  chain := by
    rw [List.isChain_cons]
    refine ⟨fun a ha => ?_, h.chain⟩
    -- The walk ends at `node`, from which the edge leads on.
    rw [h.head, Option.mem_some_iff] at ha
    exact ha ▸ (mem_inside_iff.1 hs).1
  inside t ht := by
    rcases List.mem_cons.1 ht with rfl | ht
    · exact (mem_inside_iff.1 hs).2
    · exact h.inside t ht
  visited t ht := by
    rcases List.mem_cons.1 ht with rfl | ht
    · exact .inr List.mem_cons_self
    · exact (h.visited t ht).imp_right (List.mem_cons_of_mem _)

/-- A cycle through `start` inside a set of nodes, which passes every other node at most once. -/
structure Circuit (g : Dag) (start : Target) (members cycle : List Target) : Prop where
  shape : ∃ between, cycle = start :: (between ++ [start]) ∧ (start :: between).Nodup
  inside : ∀ t ∈ cycle, t ∈ members
  edges : cycle.IsChain g.Edge

/-- A walk from which an edge leads back to its start is a cycle. -/
theorem Walk.circuit (h : Walk g start members visited node path)
    (hback : start ∈ g.inside members node) :
    Circuit g start members (start :: path).reverse where
  shape := by
    obtain ⟨between, rfl⟩ := List.getLast?_eq_some_iff.1 h.last
    refine ⟨between.reverse, by simp, ?_⟩
    have hnodup := List.nodup_reverse.2 h.nodup
    simpa using hnodup
  inside t ht := by
    rcases List.mem_cons.1 (List.mem_reverse.1 ht) with rfl | ht
    · exact (mem_inside_iff.1 hback).2
    · exact h.inside t ht
  edges := by
    -- Read from its end, the path begins with the edge that leads back to the start.
    rw [List.isChain_reverse, List.isChain_cons]
    refine ⟨fun a ha => ?_, h.chain⟩
    rw [h.head, Option.mem_some_iff] at ha
    exact ha ▸ (mem_inside_iff.1 hback).1

/-- What the search returns is a cycle. -/
theorem circuit_of_findPath {fuel : Nat} {stack : List (Target × List Target)}
    (hstack : ∀ entry ∈ stack, Walk g start members visited entry.1 entry.2)
    (h : g.findPath start members fuel visited stack = some cycle) :
    Circuit g start members cycle := by
  -- On the fuel, as the search itself; that every path on the stack is a walk carries it.
  induction fuel generalizing visited stack with
  | zero => cases h
  | succ fuel ih =>
    cases stack with
    | nil => cases h
    | cons entry stack =>
      obtain ⟨node, path⟩ := entry
      have hwalk := hstack (node, path) List.mem_cons_self
      rw [findPath_cons] at h
      split at h
      · next hback =>
        cases h
        exact hwalk.circuit hback
      · next hback =>
        apply ih ?_ h
        intro entry hentry
        rcases List.mem_append.1 hentry with hfresh | hold
        · -- A walk that has just been made longer by one node.
          obtain ⟨s, hs, rfl⟩ := List.mem_map.1 hfresh
          obtain ⟨hinside, hnew⟩ := List.mem_filter.1 hs
          have hstart : s ≠ start := fun heq => hback (heq ▸ hinside)
          apply (hwalk.step hinside hstart (by simpa using hnew)).mono
          apply List.cons_subset.2 ⟨List.mem_append_left _ hs, List.subset_append_right _ _⟩
        · exact (hstack entry (List.mem_cons_of_mem _ hold)).mono (List.subset_append_right _ _)

/-- What is reported from a node is a cycle in its component. -/
theorem circuit_of_cycleFrom? (hself : start ∈ g.component start)
    (h : g.cycleFrom? start = some cycle) : Circuit g start (g.component start) cycle := by
  refine circuit_of_findPath ?_ h
  intro entry hentry
  rw [List.mem_singleton.1 hentry]
  exact .single hself

/-- A cycle as it is reported for a component: it begins and ends at the smallest node and passes
every other node at most once. -/
structure IsCycleOf (g : Dag) (members cycle : List Target) : Prop where
  shape : ∃ least between, cycle = least :: (between ++ [least]) ∧ (least :: between).Nodup ∧
    ∀ t ∈ members, least.le t = true
  inside : ∀ t ∈ cycle, t ∈ members
  edges : cycle.IsChain g.Edge

/-- What is reported from the leader of a component is a cycle of that component. -/
theorem isCycleOf_of_cycleFrom? (hleader : g.isLeader start = true)
    (hsame : ∀ s, s ∈ g.component start ↔ s ∈ members) (h : g.cycleFrom? start = some cycle) :
    g.IsCycleOf members cycle := by
  obtain ⟨hself, hleast⟩ := isLeader_iff.1 hleader
  have hcircuit := circuit_of_cycleFrom? hself h
  obtain ⟨between, hshape, hnodup⟩ := hcircuit.shape
  refine ⟨⟨start, between, hshape, hnodup, ?_⟩, ?_, hcircuit.edges⟩
  · intro s hs
    exact hleast s ((hsame s).2 hs)
  · intro s hs
    exact (hsame s).1 (hcircuit.inside s hs)

/-- A node that leads back to itself has a cycle of its component reported. -/
theorem WellFormed.exists_cycle_of_transGen (h : g.WellFormed) (hcycle : TransGen g.Edge t t) :
    ∃ cycle ∈ g.cycles, g.IsCycleOf (g.component t) cycle := by
  obtain ⟨leader, hmem, hleader, cycle, hreported, hfound⟩ := h.exists_mem_cycles hcycle
  refine ⟨cycle, hreported, isCycleOf_of_cycleFrom? hleader ?_ hfound⟩
  intro s
  exact h.mem_component_congr hmem

/-! ## §2 Components -/

/-- The list holds the components of the graph: every node is in exactly one of them, once, and
each of them holds the nodes that lead to one another. -/
structure ListsComponents (g : Dag) (components : List (List Target)) : Prop where
  perm : components.flatten.Perm g.nodes
  nil_not_mem : [] ∉ components
  mem_iff : ∀ c ∈ components, ∀ a ∈ c, ∀ b,
    b ∈ c ↔ ReflTransGen g.Edge a b ∧ ReflTransGen g.Edge b a

/-- Does a component hold a cycle? -/
def HoldsCycle (g : Dag) (members : List Target) : Prop :=
  2 ≤ members.length ∨ ∃ t ∈ members, (t, t) ∈ g.edges

instance (g : Dag) (members : List Target) : Decidable (g.HoldsCycle members) :=
  inferInstanceAs (Decidable (_ ∨ _))

/-- The nodes that lead to `t` and back, and `t` itself. -/
def classOf (g : Dag) (t : Target) : List Target :=
  g.nodes.filter fun s => s = t ∨ s ∈ g.component t

/-- The components of a graph, each in the place of its first node. -/
def components (g : Dag) : List (List Target) :=
  (g.nodes.filter fun t => (g.classOf t).head? = some t).map g.classOf

namespace WellFormed

theorem mem_classOf_iff (h : g.WellFormed) (ht : t ∈ g.nodes) :
    s ∈ g.classOf t ↔ ReflTransGen g.Edge t s ∧ ReflTransGen g.Edge s t := by
  simp only [classOf, List.mem_filter, decide_eq_true_eq, h.mem_component_iff]
  constructor
  · rintro ⟨-, rfl | ⟨hto, hback⟩⟩
    · exact ⟨.refl, .refl⟩
    · exact ⟨hto.to_reflTransGen, hback.to_reflTransGen⟩
  · rintro ⟨hto, hback⟩
    rcases reflTransGen_iff_eq_or_transGen.1 hto with rfl | hto
    · exact ⟨ht, .inl rfl⟩
    · rcases reflTransGen_iff_eq_or_transGen.1 hback with rfl | hback
      · exact ⟨ht, .inl rfl⟩
      · -- An edge ends at `s`, so it is a node.
        obtain ⟨u, -, hus⟩ := TransGen.tail'_iff.1 hto
        exact ⟨h.target_mem hus, .inr ⟨hto, hback⟩⟩

/-- Nodes that lead to one another have one class, in one order. -/
theorem classOf_eq (h : g.WellFormed) (ht : t ∈ g.nodes) (hs : s ∈ g.classOf t) :
    g.classOf s = g.classOf t := by
  have hnode : s ∈ g.nodes := (List.mem_filter.1 hs).1
  obtain ⟨hto, hback⟩ := (h.mem_classOf_iff ht).1 hs
  apply List.filter_congr
  intro u hu
  apply decide_eq_decide.2
  have hsame : u ∈ g.classOf s ↔ u ∈ g.classOf t := by
    rw [h.mem_classOf_iff hnode, h.mem_classOf_iff ht]
    exact ⟨fun ⟨h₁, h₂⟩ => ⟨hto.trans h₁, h₂.trans hback⟩,
      fun ⟨h₁, h₂⟩ => ⟨hback.trans h₁, h₂.trans hto⟩⟩
  simpa [classOf, hu] using hsame

theorem self_mem_classOf (h : g.WellFormed) (ht : t ∈ g.nodes) : t ∈ g.classOf t :=
  (h.mem_classOf_iff ht).2 ⟨.refl, .refl⟩

/-- The components that are computed are the components. -/
theorem listsComponents_components (h : g.WellFormed) : g.ListsComponents g.components where
  perm := by
    have hnodup : g.components.flatten.Nodup := by
      rw [List.nodup_flatten]
      constructor
      · intro c hc
        obtain ⟨t, -, rfl⟩ := List.mem_map.1 hc
        exact h.nodes_nodup.filter _
      · rw [components, List.pairwise_map]
        apply (h.nodes_nodup.filter _).imp_of_mem
        intro a b ha hb hab u hua hub
        -- Classes with a common node are one class, which has one first node.
        simp only [List.mem_filter, decide_eq_true_eq] at ha hb
        have hclass := (h.classOf_eq ha.1 hua).symm.trans (h.classOf_eq hb.1 hub)
        rw [← hclass, ha.2] at hb
        exact hab (Option.some.inj hb.2)
    apply (List.perm_ext_iff_of_nodup hnodup h.nodes_nodup).2
    intro t
    simp only [components, List.mem_flatten, List.mem_map, List.mem_filter, decide_eq_true_eq]
    constructor
    · rintro ⟨_, ⟨u, -, rfl⟩, ht⟩
      exact (List.mem_filter.1 ht).1
    · intro ht
      -- The class of a node is listed in the place of its first node.
      have hself := h.self_mem_classOf ht
      have hne := List.ne_nil_of_mem hself
      have hfirst := List.head?_eq_some_head hne
      have hmem := List.head_mem hne
      generalize (g.classOf t).head hne = first at hfirst hmem
      have hsame := h.classOf_eq ht hmem
      exact ⟨g.classOf first, ⟨first, ⟨(List.mem_filter.1 hmem).1, hsame ▸ hfirst⟩, rfl⟩,
        hsame ▸ hself⟩
  nil_not_mem := by
    intro hnil
    obtain ⟨t, ht, hclass⟩ := List.mem_map.1 hnil
    have hself := h.self_mem_classOf (List.mem_filter.1 ht).1
    rw [hclass] at hself
    cases hself
  mem_iff := by
    intro c hc a ha b
    obtain ⟨t, ht, rfl⟩ := List.mem_map.1 hc
    have hnode := (List.mem_filter.1 ht).1
    rw [← h.classOf_eq hnode ha, h.mem_classOf_iff (List.mem_filter.1 ha).1]

end WellFormed

/-! ## §3 One cycle for each component -/

/-- The smallest of some targets. -/
def least? (members : List Target) : Option Target :=
  members.find? fun t => members.all (t.le ·)

/-- The cycle that is reported for a component, if the component holds one.  A component with one
node holds a cycle if that node depends on itself. -/
def cycleIn? (g : Dag) (members : List Target) : Option (List Target) :=
  if 1 < members.length ∨ members.head?.any (fun t => g.edges.contains (t, t)) then
    (least? members).bind fun start =>
      g.findPath start members (members.length + 1) [] [(start, [start])]
  else none

/-- The cycles that are reported if these are the components of the graph, sorted node by node. -/
def cyclesIn (g : Dag) (components : List (List Target)) : List (List Target) :=
  (components.filterMap g.cycleIn?).mergeSort fun a b => (List.compareLex Target.order a b).isLE

theorem least?_eq_some_iff : least? members = some t ↔ t ∈ members ∧ ∀ s ∈ members, t.le s := by
  constructor
  · intro h
    have hleast := List.find?_some h
    exact ⟨List.mem_of_find?_eq_some h, by simpa using hleast⟩
  · rintro ⟨ht, hleast⟩
    have hsome : (least? members).isSome := by
      rw [least?, List.find?_isSome]
      exact ⟨t, ht, by simpa using hleast⟩
    obtain ⟨s, hs⟩ := Option.isSome_iff_exists.1 hsome
    have hleast' := List.find?_some hs
    rw [List.all_eq_true] at hleast'
    -- There is only one smallest target.
    rw [hs, Target.le_antisymm (hleast' t ht) (hleast s (List.mem_of_find?_eq_some hs))]

/-- Only in a component with one node does it matter whether the first one depends on itself. -/
theorem holdsCycle_iff_head :
    g.HoldsCycle members ↔
      1 < members.length ∨ members.head?.any (fun t => g.edges.contains (t, t)) := by
  rcases members with _ | ⟨first, _ | ⟨second, rest⟩⟩ <;> simp [HoldsCycle]

/-- Components without a cycle add nothing. -/
theorem filterMap_cycleIn? (g : Dag) (components : List (List Target)) :
    components.filterMap g.cycleIn? =
      (components.filter (g.HoldsCycle ·)).filterMap g.cycleIn? := by
  rw [List.filterMap_filter]
  apply List.filterMap_congr
  intro c _
  simp only [cycleIn?, holdsCycle_iff_head, decide_eq_true_eq]
  split <;> rfl

/-- A list in which every element has something found for it has these things in its order. -/
theorem forall₂_filterMap {α β : Type} {R : α → β → Prop} {find : α → Option β} {l : List α}
    (h : ∀ a ∈ l, ∃ b, find a = some b ∧ R a b) : List.Forall₂ R l (l.filterMap find) := by
  induction l with
  | nil => exact .nil
  | cons a l ih =>
    obtain ⟨b, hfind, hab⟩ := h a List.mem_cons_self
    rw [List.filterMap_cons_some hfind]
    exact .cons hab (ih fun c hc => h c (List.mem_cons_of_mem _ hc))

namespace ListsComponents

variable {components : List (List Target)} {c : List Target}

theorem nodup_of_mem (h : g.WellFormed) (hlist : g.ListsComponents components)
    (hc : c ∈ components) : c.Nodup := by
  have hflat := hlist.perm.nodup_iff.2 h.nodes_nodup
  exact (List.nodup_flatten.1 hflat).1 c hc

theorem mem_nodes (hlist : g.ListsComponents components) (hc : c ∈ components) (ht : t ∈ c) :
    t ∈ g.nodes :=
  hlist.perm.mem_iff.1 (List.mem_flatten.2 ⟨c, hc, ht⟩)

/-- In a component that holds a cycle every node leads back to itself. -/
theorem transGen_self (h : g.WellFormed) (hlist : g.ListsComponents components)
    (hc : c ∈ components) (hcycle : g.HoldsCycle c) (ht : t ∈ c) : TransGen g.Edge t t := by
  -- Another node in the component leads to this one and back.
  have hother : ∀ s ∈ c, s ≠ t → TransGen g.Edge t t := by
    intro s hs hst
    obtain ⟨hto, hback⟩ := (hlist.mem_iff c hc t ht s).1 hs
    have hto := (reflTransGen_iff_eq_or_transGen.1 hto).resolve_left hst
    exact hto.trans_left hback
  rcases hcycle with htwo | ⟨s, hs, hedge⟩
  · -- Two nodes of a list without repetitions are not both `t`.
    have hnodup := nodup_of_mem h hlist hc
    obtain ⟨s, hs, hst⟩ : ∃ s ∈ c, s ≠ t := by
      by_contra hnone
      have hall : ∀ s ∈ c, s = t := by simpa using hnone
      have hlength := (List.eq_replicate_of_mem hall ▸ hnodup)
      rw [List.nodup_replicate] at hlength
      omega
    exact hother s hs hst
  · by_cases hst : s = t
    · subst hst
      exact .single hedge
    · exact hother s hs hst

/-- A component that holds a cycle is the one that its nodes are searched in. -/
theorem mem_component_iff (h : g.WellFormed) (hlist : g.ListsComponents components)
    (hc : c ∈ components) (hcycle : g.HoldsCycle c) (ht : t ∈ c) :
    s ∈ g.component t ↔ s ∈ c := by
  have hself := transGen_self h hlist hc hcycle ht
  rw [h.mem_component_iff, hlist.mem_iff c hc t ht s]
  constructor
  · rintro ⟨hto, hback⟩
    exact ⟨hto.to_reflTransGen, hback.to_reflTransGen⟩
  · rintro ⟨hto, hback⟩
    exact ⟨hself.trans_left hto, hself.trans_right hback⟩

/-- A node that leads back to itself is in a component that holds a cycle. -/
theorem holdsCycle_of_transGen (hlist : g.ListsComponents components) (hc : c ∈ components)
    (ht : t ∈ c) (hself : TransGen g.Edge t t) : g.HoldsCycle c := by
  -- The first step leads back at once or to another node of the component.
  obtain ⟨s, hedge, hback⟩ := TransGen.head'_iff.1 hself
  by_cases hst : s = t
  · subst hst
    exact .inr ⟨s, ht, hedge⟩
  · have hs : s ∈ c := (hlist.mem_iff c hc t ht s).2 ⟨.single hedge, hback⟩
    have hpair : [s, t].Subperm c := List.subperm_of_subset (by simpa using hst) (by simp [hs, ht])
    exact .inl hpair.length_le

/-- A leader is the smallest node of a component that holds a cycle. -/
theorem isLeader_iff (h : g.WellFormed) (hlist : g.ListsComponents components)
    (hc : c ∈ components) (ht : t ∈ c) :
    g.isLeader t = true ↔ g.HoldsCycle c ∧ least? c = some t := by
  rw [Dag.isLeader_iff, least?_eq_some_iff]
  constructor
  · rintro ⟨hself, hleast⟩
    have hcycle := holdsCycle_of_transGen hlist hc ht (h.mem_component_iff.1 hself).1
    have hmem : ∀ s, s ∈ g.component t ↔ s ∈ c := fun s =>
      mem_component_iff h hlist hc hcycle ht
    exact ⟨hcycle, ht, fun s hs => hleast s ((hmem s).2 hs)⟩
  · rintro ⟨hcycle, -, hleast⟩
    have hmem : ∀ s, s ∈ g.component t ↔ s ∈ c := fun s =>
      mem_component_iff h hlist hc hcycle ht
    exact ⟨(hmem t).2 ht, fun s hs => hleast s ((hmem s).1 hs)⟩

/-- The cycle of a component is the one from its smallest node. -/
theorem cycleIn?_eq (h : g.WellFormed) (hlist : g.ListsComponents components)
    (hc : c ∈ components) :
    g.cycleIn? c = if g.HoldsCycle c then (least? c).bind g.cycleFrom? else none := by
  simp only [cycleIn?, ← holdsCycle_iff_head]
  split
  · next hcycle =>
    apply Option.bind_congr
    intro start hstart
    -- The search goes through the nodes in another order, which it does not show.
    have hmem : ∀ s, s ∈ c ↔ s ∈ g.component start := fun s =>
      (mem_component_iff h hlist hc hcycle (least?_eq_some_iff.1 hstart).1).symm
    have hperm : c.Perm (g.component start) :=
      (List.perm_ext_iff_of_nodup (nodup_of_mem h hlist hc) (h.component_nodup start)).2 hmem
    rw [cycleFrom?, hperm.length_eq]
    exact (SameGraph.refl g).findPath_eq hmem start _ _ _
  · rfl

/-- The smallest nodes of the components that hold a cycle are the leaders. -/
theorem leaders_perm (h : g.WellFormed) (hlist : g.ListsComponents components) :
    ((components.filter (g.HoldsCycle ·)).filterMap least?).Perm (g.nodes.filter g.isLeader) := by
  have hflat := hlist.perm.nodup_iff.2 h.nodes_nodup
  have hnodup : ((components.filter (g.HoldsCycle ·)).filterMap least?).Nodup := by
    rw [List.Nodup, List.pairwise_filterMap]
    -- Components have no node in common.
    apply ((List.nodup_flatten.1 hflat).2.filter _).imp
    intro c c' hdisjoint t ht t' ht' heq
    subst heq
    exact hdisjoint (least?_eq_some_iff.1 ht).1 (least?_eq_some_iff.1 ht').1
  apply (List.perm_ext_iff_of_nodup hnodup (h.nodes_nodup.filter _)).2
  intro t
  simp only [List.mem_filterMap, List.mem_filter, decide_eq_true_eq]
  constructor
  · rintro ⟨c, ⟨hc, hcycle⟩, hleast⟩
    have ht := (least?_eq_some_iff.1 hleast).1
    exact ⟨hlist.mem_nodes hc ht, (isLeader_iff h hlist hc ht).2 ⟨hcycle, hleast⟩⟩
  · rintro ⟨hnode, hleader⟩
    obtain ⟨c, hc, ht⟩ := List.mem_flatten.1 (hlist.perm.mem_iff.2 hnode)
    obtain ⟨hcycle, hleast⟩ := (isLeader_iff h hlist hc ht).1 hleader
    exact ⟨c, ⟨hc, hcycle⟩, hleast⟩

/-- Going through the components finds the cycles of the leaders, in some order. -/
theorem cycleIn?_perm (h : g.WellFormed) (hlist : g.ListsComponents components) :
    (components.filterMap g.cycleIn?).Perm g.cycles := by
  have hsplit : components.filterMap g.cycleIn? =
      ((components.filter (g.HoldsCycle ·)).filterMap least?).filterMap g.cycleFrom? := by
    rw [List.filterMap_filterMap, List.filterMap_filter]
    apply List.filterMap_congr
    intro c hc
    simpa using cycleIn?_eq h hlist hc
  rw [hsplit, cycles]
  apply List.Perm.filterMap
  exact (leaders_perm h hlist).trans (List.mergeSort_perm _ _).symm

end ListsComponents

/-- The cycles are reported in their own order. -/
theorem WellFormed.pairwise_cycles (h : g.WellFormed) :
    g.cycles.Pairwise fun a b => (List.compareLex Target.order a b).isLE = true := by
  rw [cycles, List.pairwise_filterMap]
  have hsorted := Target.pairwise_mergeSort (g.nodes.filter g.isLeader)
  have hnodup : ((g.nodes.filter g.isLeader).mergeSort Target.le).Nodup :=
    (List.mergeSort_perm _ _).nodup_iff.2 (h.nodes_nodup.filter _)
  apply (hsorted.and hnodup).imp_of_mem
  rintro a b ha hb ⟨hle, hne⟩ cycle hcycle cycle' hcycle'
  have hself : ∀ t ∈ (g.nodes.filter g.isLeader).mergeSort Target.le, t ∈ g.component t := by
    intro t ht
    exact (isLeader_iff.1 (List.mem_filter.1 (List.mem_mergeSort.1 ht)).2).1
  -- The cycles begin with different nodes, of which the first is the smaller one.
  obtain ⟨between, rfl, -⟩ := (circuit_of_cycleFrom? (hself a ha) hcycle).shape
  obtain ⟨between', rfl, -⟩ := (circuit_of_cycleFrom? (hself b hb) hcycle').shape
  rw [List.compareLex_cons_cons]
  have horder : a.order b = .lt := by
    have hne' : a.order b ≠ .eq := fun heq => hne (Target.eq_of_order_eq heq)
    unfold Target.le at hle
    cases hcase : a.order b <;> simp_all
  rw [horder]
  rfl

/-- However the components are listed, the same cycles are reported. -/
theorem ListsComponents.cyclesIn_eq (h : g.WellFormed) {components : List (List Target)}
    (hlist : g.ListsComponents components) : g.cyclesIn components = g.cycles := by
  rw [cyclesIn, ← List.mergeSort_of_pairwise h.pairwise_cycles]
  apply mergeSort_eq_of_perm
  · intro a b c
    exact Std.TransCmp.isLE_trans
  · exact isLE_total _
  · intro a _ b _ hab hba
    exact Std.LawfulEqCmp.eq_of_compare (Std.OrientedCmp.isLE_antisymm hab hba)
  · exact cycleIn?_perm h hlist

/-- Every component that holds a cycle has one in its place among those that are found. -/
theorem ListsComponents.isCycleOf_cycleIn? (h : g.WellFormed) {components : List (List Target)}
    (hlist : g.ListsComponents components) {c : List Target} (hc : c ∈ components)
    (hcycle : g.HoldsCycle c) : ∃ cycle, g.cycleIn? c = some cycle ∧ g.IsCycleOf c cycle := by
  have hne : c ≠ [] := fun hnil => hlist.nil_not_mem (hnil ▸ hc)
  obtain ⟨least, hmem, hleast⟩ := exists_least hne
  have hfirst : least? c = some least := least?_eq_some_iff.2 ⟨hmem, hleast⟩
  have hleader := (isLeader_iff h hlist hc hmem).2 ⟨hcycle, hfirst⟩
  obtain ⟨cycle, hfound⟩ := Option.isSome_iff_exists.1 (h.cycleFrom?_isSome hleader)
  refine ⟨cycle, ?_, ?_⟩
  · rw [cycleIn?_eq h hlist hc, if_pos hcycle, hfirst]
    exact hfound
  · apply isCycleOf_of_cycleFrom? hleader _ hfound
    intro s
    exact mem_component_iff h hlist hc hcycle hmem

/-! ## §4 What is reported -/

/-- What is reported after some additions, if these are the components of the graph. -/
structure ReportsCycles (additions : List Addition) (components : List (List Target)) : Prop where
  /-- One cycle is reported for each component that holds one, and nothing else. -/
  one_each : ∃ reported, reported.Perm ((build additions).cyclesIn components) ∧
    List.Forall₂ (build additions).IsCycleOf
      (components.filter ((build additions).HoldsCycle ·)) reported
  /-- The components that the search goes through need not be listed in this way. -/
  cycles_eq : (build additions).cycles = (build additions).cyclesIn components
  valid_iff : (build additions).validate = .ok () ↔ (build additions).Acyclic
  /-- Neither the order of the additions nor that of the components matters. -/
  unordered : ∀ additions' components', (∀ addition, addition ∈ additions' ↔ addition ∈ additions) →
    (build additions').ListsComponents components' →
      (build additions').cyclesIn components' = (build additions).cyclesIn components

/-- Whatever is added, and however the components of the graph are listed: one cycle is reported
for each of those that hold one. -/
theorem cycles_build (additions : List Addition) (components : List (List Target))
    (h : (build additions).ListsComponents components) : ReportsCycles additions components := by
  have hwf := wellFormed_build additions
  constructor
  · refine ⟨components.filterMap (build additions).cycleIn?, ?_, ?_⟩
    · exact (List.mergeSort_perm _ _).symm
    · rw [filterMap_cycleIn?]
      apply forall₂_filterMap
      intro c hc
      rw [List.mem_filter, decide_eq_true_eq] at hc
      exact h.isCycleOf_cycleIn? hwf hc.1 hc.2
  · exact (h.cyclesIn_eq hwf).symm
  · exact hwf.validate_eq_ok_iff
  · intro additions' components' hsame h'
    rw [h.cyclesIn_eq hwf, h'.cyclesIn_eq (wellFormed_build additions')]
    exact (sameGraph_build hsame).cycles_congr (wellFormed_build additions') hwf

/-- Two targets that depend on each other, one that depends on itself, and one on no cycle. -/
def twoLoops : List Addition :=
  [.dependency ⟨none, "s", "b"⟩ ⟨none, "s", "a"⟩, .dependency ⟨none, "s", "a"⟩ ⟨none, "s", "b"⟩,
    .dependency ⟨none, "s", "c"⟩ ⟨none, "s", "c"⟩, .dependency ⟨none, "s", "d"⟩ ⟨none, "s", "a"⟩]

/-- The components of these targets. -/
def twoLoopComponents : List (List Target) :=
  [[⟨none, "s", "a"⟩, ⟨none, "s", "b"⟩], [⟨none, "s", "c"⟩], [⟨none, "s", "d"⟩]]

theorem cycles_build_twoLoops :
    (build twoLoops).ListsComponents twoLoopComponents ∧
      ReportsCycles twoLoops twoLoopComponents := by
  have hlist : (build twoLoops).ListsComponents twoLoopComponents := by
    have hcomponents : (build twoLoops).components = twoLoopComponents := by decide +kernel
    rw [← hcomponents]
    exact (wellFormed_build twoLoops).listsComponents_components
  exact ⟨hlist, cycles_build twoLoops twoLoopComponents hlist⟩

end SqlWorkflow.Dag
