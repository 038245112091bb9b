import SqlWorkflow.Proofs.Graph.Construction

/-!
# Dependencies first

The nodes of a graph are asked for in an order in which every dependency comes before what depends
on it.  There is one exactly if there is no cycle.

- **§1** Orders of the nodes (`Arranges`), and lists that are built from the back so that every
  node finds its successors behind it (`Ordered`).
- **§2** What one call of the search does to the nodes met and placed before (`Places`).  A node
  that is met but not placed leads to the node that is asked for, so without a cycle the search
  never comes back to it.
- **§3** The search finds an order if there is one, and what is answered with an order in hand or
  without one (`topologicalOrder_build`).
-/

namespace SqlWorkflow.Dag

open Relation

variable {g : Dag} {a b t : Target} {l : List Target}

/-! ## §1 Orders -/

/-- The list holds every node once, and every dependency before what depends on it. -/
structure Arranges (g : Dag) (l : List Target) : Prop where
  perm : l.Perm g.nodes
  before : ∀ a b, g.Edge a b → l.idxOf a < l.idxOf b

/-- What depends on a node of the list stands behind it, and nothing stands twice. -/
def Ordered (g : Dag) : List Target → Prop
  | [] => True
  | t :: rest => t ∉ rest ∧ (∀ s, g.Edge t s → s ∈ rest) ∧ Ordered g rest

/-- Along a path positions grow, so no path leads back. -/
theorem acyclic_of_before (h : ∀ a b, g.Edge a b → l.idxOf a < l.idxOf b) : g.Acyclic := by
  have hgrows : ∀ {a b}, TransGen g.Edge a b → l.idxOf a < l.idxOf b := by
    intro a b hab
    induction hab with
    | single hab => exact h _ _ hab
    | tail _ hbc ih => exact Nat.lt_trans ih (h _ _ hbc)
  intro t hcycle
  exact Nat.lt_irrefl _ (hgrows hcycle)

namespace Ordered

theorem nodup (h : g.Ordered l) : l.Nodup := by
  induction l with
  | nil => exact List.nodup_nil
  | cons t rest ih =>
    obtain ⟨hnew, _, hrest⟩ := h
    exact List.nodup_cons.2 ⟨hnew, ih hrest⟩

theorem edge_mem (h : g.Ordered l) (ha : a ∈ l) (hab : g.Edge a b) : b ∈ l := by
  induction l with
  | nil => cases ha
  | cons t rest ih =>
    obtain ⟨_, hbehind, hrest⟩ := h
    apply List.mem_cons_of_mem
    rcases List.mem_cons.1 ha with rfl | ha
    · exact hbehind b hab
    · exact ih hrest ha

theorem idxOf_lt (h : g.Ordered l) (ha : a ∈ l) (hab : g.Edge a b) :
    l.idxOf a < l.idxOf b := by
  induction l with
  | nil => cases ha
  | cons t rest ih =>
    obtain ⟨hnew, hbehind, hrest⟩ := h
    have hb : b ∈ rest := by
      rcases List.mem_cons.1 ha with rfl | ha
      · exact hbehind b hab
      · exact hrest.edge_mem ha hab
    -- The node behind is not the first one, since nothing stands twice.
    have hbt : t ≠ b := fun heq => hnew (heq ▸ hb)
    rw [List.idxOf_cons_ne rest hbt]
    by_cases hat : t = a
    · simp [hat]
    · rw [List.idxOf_cons_ne rest hat]
      have harest : a ∈ rest := (List.mem_cons.1 ha).resolve_left (Ne.symm hat)
      exact Nat.succ_lt_succ (ih hrest harest)

end Ordered

/-! ## §2 What a search places -/

/-- The nodes placed so far are in order, and they are nodes that have been met. -/
structure Sorting.Sound (g : Dag) (s : Sorting) : Prop where
  ordered : g.Ordered s.placed
  placed_met : s.placed ⊆ s.met
  placed_nodes : s.placed ⊆ g.nodes

/-- `s'` is what a search from the nodes `starts` makes of `s`. -/
structure Places (s : Sorting) (starts : List Target) (s' : Sorting) : Prop where
  keeps : s.placed ⊆ s'.placed
  visits : starts ⊆ s'.placed
  met_subset : s.met ⊆ s'.met
  /-- What is met is placed before the search returns. -/
  places : ∀ a ∈ s'.met, a ∈ s.met ∨ a ∈ s'.placed
  /-- What was met before is left to the searches that met it. -/
  leaves : ∀ a ∈ s.met, a ∈ s'.placed → a ∈ s.placed

namespace Places

variable {s mid s' : Sorting} {starts : List Target}

theorem nil (s : Sorting) : Places s [] s where
  keeps := List.Subset.refl _
  visits := List.nil_subset _
  met_subset := List.Subset.refl _
  places _ ha := .inl ha
  leaves _ _ ha := ha

theorem of_placed (ht : t ∈ s.placed) : Places s [t] s where
  keeps := List.Subset.refl _
  visits := by simpa using ht
  met_subset := List.Subset.refl _
  places _ ha := .inl ha
  leaves _ _ ha := ha

/-- A new node is placed once everything that depends on it is. -/
theorem of_new (ht : t ∉ s.met) (h : Places { s with met := t :: s.met } starts s') :
    Places s [t] { s' with placed := t :: s'.placed } where
  keeps a ha := List.mem_cons_of_mem _ (h.keeps ha)
  visits := by simp
  met_subset a ha := h.met_subset (List.mem_cons_of_mem _ ha)
  places a ha := by
    rcases h.places a ha with hmet | hplaced
    · rcases List.mem_cons.1 hmet with rfl | hmet
      · exact .inr List.mem_cons_self
      · exact .inl hmet
    · exact .inr (List.mem_cons_of_mem _ hplaced)
  leaves a ha hplaced := by
    rcases List.mem_cons.1 hplaced with rfl | hplaced
    · exact absurd ha ht
    · exact h.leaves a (List.mem_cons_of_mem _ ha) hplaced

/-- Searches add up. -/
theorem cons (first : Places s [t] mid) (rest : Places mid starts s') :
    Places s (t :: starts) s' where
  keeps a ha := rest.keeps (first.keeps ha)
  visits := List.cons_subset.2 ⟨rest.keeps (first.visits List.mem_cons_self), rest.visits⟩
  met_subset a ha := rest.met_subset (first.met_subset ha)
  places a ha := by
    rcases rest.places a ha with hmet | hplaced
    · rcases first.places a hmet with hmet | hplaced
      · exact .inl hmet
      · exact .inr (rest.keeps hplaced)
    · exact .inr hplaced
  leaves a ha hplaced := first.leaves a ha (rest.leaves a (first.met_subset ha) hplaced)

/-- What is still open after a search was open before it. -/
theorem open_before (h : Places s starts s') (ha : a ∈ s'.met) (hopen : a ∉ s'.placed) :
    a ∈ s.met ∧ a ∉ s.placed := by
  constructor
  · exact (h.places a ha).resolve_right hopen
  · intro hplaced
    exact hopen (h.keeps hplaced)

/-- A search from several nodes, one after the other. -/
theorem foldl {search : Sorting → Target → Sorting} (starts : List Target) (hs : s.Sound g)
    (h : ∀ u ∈ starts, ∀ s', s'.Sound g → s.met ⊆ s'.met →
      (∀ a ∈ s'.met, a ∉ s'.placed → a ∈ s.met ∧ a ∉ s.placed) →
        (search s' u).Sound g ∧ Places s' [u] (search s' u)) :
    (starts.foldl search s).Sound g ∧ Places s starts (starts.foldl search s) := by
  induction starts generalizing s with
  | nil => exact ⟨hs, nil s⟩
  | cons u starts ih =>
    obtain ⟨hsound, hfirst⟩ := h u List.mem_cons_self s hs (List.Subset.refl _)
      (fun a ha hopen => ⟨ha, hopen⟩)
    -- Later searches start with less that is open and with more that is met.
    have hrest := ih hsound fun v hv s' hs' hmet hopen => by
      apply h v (List.mem_cons_of_mem _ hv) s' hs'
      · intro a ha
        exact hmet (hfirst.met_subset ha)
      · intro a ha hnot
        obtain ⟨hmid, hmid'⟩ := hopen a ha hnot
        exact hfirst.open_before hmid hmid'
    exact ⟨hrest.1, hfirst.cons hrest.2⟩

end Places

/-- Without a cycle the search places the node that it is asked for, if everything that is open
leads to it and there is fuel for every node that has not been met. -/
theorem WellFormed.places_place (h : g.WellFormed) (hacyclic : g.Acyclic) {fuel : Nat}
    {s : Sorting} (hs : s.Sound g) (hnode : t ∈ g.nodes) (hfuel : g.unseen s.met < fuel)
    (hopen : ∀ a ∈ s.met, a ∉ s.placed → TransGen g.Edge a t) :
    (g.place fuel s t).Sound g ∧ Places s [t] (g.place fuel s t) := by
  -- On the fuel, as the search itself.  That everything open leads to the node carries it.
  induction fuel generalizing s t with
  | zero => exact absurd hfuel (Nat.not_lt_zero _)
  | succ fuel ih =>
    rw [place]
    split
    · next hmet =>
      -- A node that is met is placed: if it were open it would lead to itself.
      have hplaced : t ∈ s.placed := by
        by_contra hnot
        exact hacyclic t (hopen t hmet hnot)
      exact ⟨hs, .of_placed hplaced⟩
    · next hnew =>
      have hs' : Sorting.Sound g { s with met := t :: s.met } :=
        { hs with placed_met := fun a ha => List.mem_cons_of_mem _ (hs.placed_met ha) }
      obtain ⟨hbelow, hplaces⟩ := Places.foldl (g.successors t) hs'
        fun u hu s'' hs'' hmet hless => by
          have htu : g.Edge t u := mem_successors_iff.1 hu
          apply ih hs'' (h.target_mem htu)
          · -- The node itself is met now and was not before.
            have hlt := unseen_cons_lt hnode hnew
            have hle : g.unseen s''.met ≤ g.unseen (t :: s.met) := unseen_mono hmet
            omega
          · intro a ha hnot
            obtain ⟨hold, hold'⟩ := hless a ha hnot
            rcases List.mem_cons.1 hold with rfl | hold
            · exact .single htu
            · exact (hopen a hold hold').tail htu
      refine ⟨⟨⟨?_, ?_, hbelow.ordered⟩, ?_, ?_⟩, .of_new hnew hplaces⟩
      · intro hplaced
        exact hnew (hs.placed_met (hplaces.leaves t List.mem_cons_self hplaced))
      · intro u htu
        exact hplaces.visits (mem_successors_iff.2 htu)
      · exact List.cons_subset.2 ⟨hplaces.met_subset List.mem_cons_self, hbelow.placed_met⟩
      · exact List.cons_subset.2 ⟨hnode, hbelow.placed_nodes⟩

/-! ## §3 The answer -/

/-- Without a cycle the search puts all nodes in order. -/
theorem WellFormed.arranges_order (h : g.WellFormed) (hacyclic : g.Acyclic) :
    g.Arranges g.order := by
  have hstart : Sorting.Sound g {} := ⟨trivial, List.nil_subset _, List.nil_subset _⟩
  obtain ⟨hsound, hplaces⟩ := Places.foldl g.nodes hstart
    fun t ht s hs _ hopen => by
      apply h.places_place hacyclic hs ht
      · exact Nat.lt_succ_of_le (g.unseen_le_length s.met)
      · -- Nothing is open between two searches.
        intro a ha hnot
        exact absurd (hopen a ha hnot).1 List.not_mem_nil
  have hperm : g.order.Perm g.nodes := by
    apply (List.perm_ext_iff_of_nodup hsound.ordered.nodup h.nodes_nodup).2
    intro t
    exact ⟨fun ht => hsound.placed_nodes ht, fun ht => hplaces.visits ht⟩
  refine ⟨hperm, ?_⟩
  intro a b hab
  exact hsound.ordered.idxOf_lt (hperm.mem_iff.2 (h.source_mem hab)) hab

theorem respects_iff : g.respects l = true ↔ ∀ a b, g.Edge a b → l.idxOf a < l.idxOf b := by
  simp [respects, Edge, List.all_eq_true]

/-- What a sort of the nodes may find: an order, or nothing if some node leads back to itself. -/
def Sorts (g : Dag) : Option (List Target) → Prop
  | some l => g.Arranges l
  | none => ∃ t, TransGen g.Edge t t

/-- The search finds an order if there is one. -/
theorem WellFormed.sorts_sorted? (h : g.WellFormed) : g.Sorts g.sorted? := by
  by_cases hacyclic : g.Acyclic
  · have horder := h.arranges_order hacyclic
    have hrespects : g.respects g.order = true := respects_iff.2 horder.before
    simpa [sorted?, hrespects, Sorts] using horder
  · obtain ⟨t, hcycle⟩ : ∃ t, TransGen g.Edge t t := by simpa [Acyclic] using hacyclic
    -- A list that respects the edges would leave no room for the cycle.
    have hrespects : g.respects g.order = false := by
      rw [Bool.eq_false_iff]
      intro hrespects
      exact acyclic_of_before (respects_iff.1 hrespects) t hcycle
    simpa [sorted?, hrespects, Sorts] using ⟨t, hcycle⟩

/-- An answer to the question for the targets that were added, dependencies first. -/
structure AnswersOrder (additions : List Addition)
    (outcome : Except CycleError (List Target)) : Prop where
  ok_iff : (∃ l, outcome = .ok l) ↔ (build additions).Acyclic
  nodup : ∀ l, outcome = .ok l → l.Nodup
  mem_iff : ∀ l, outcome = .ok l → ∀ t, t ∈ l ↔ t ∈ additions.flatMap Addition.targets
  before : ∀ l, outcome = .ok l → ∀ dependent dependency,
    .dependency dependent dependency ∈ additions → l.idxOf dependency < l.idxOf dependent
  /-- Any other outcome is the first cycle that is reported. -/
  circular : ∀ e, outcome = .error e → (build additions).cycles.head? = some e.cycle
  ne_nil : additions ≠ [] → outcome ≠ .ok []

/-- Without an order the validation finds a cycle, so the empty list behind it is never reached. -/
theorem answer_none {additions : List Addition} (h : (build additions).Sorts none) :
    ∃ e, (build additions).answer none = .error e ∧
      (build additions).cycles.head? = some e.cycle := by
  obtain ⟨t, hcycle⟩ := h
  have hvalidate : (build additions).validate ≠ .ok () := by
    intro hok
    exact (wellFormed_build additions).validate_eq_ok_iff.1 hok t hcycle
  simp only [answer]
  unfold validate at hvalidate ⊢
  cases hcycles : (build additions).cycles with
  | nil => simp [hcycles] at hvalidate
  | cons cycle cycles => exact ⟨⟨cycle⟩, rfl, rfl⟩

theorem answersOrder_answer {additions : List Addition} {found : Option (List Target)}
    (h : (build additions).Sorts found) :
    AnswersOrder additions ((build additions).answer found) := by
  cases found with
  | none =>
    obtain ⟨e, hanswer, hfirst⟩ := answer_none h
    obtain ⟨t, hcycle⟩ := h
    rw [hanswer]
    constructor
    · constructor
      · rintro ⟨l, hl⟩
        cases hl
      · intro hacyclic
        exact absurd hcycle (hacyclic t)
    · intro l hl
      cases hl
    · intro l hl
      cases hl
    · intro l hl
      cases hl
    · intro e' he'
      cases he'
      exact hfirst
    · intro _ hnil
      cases hnil
  | some order =>
    have harranges : (build additions).Arranges order := h
    have hmem : ∀ t, t ∈ order ↔ t ∈ additions.flatMap Addition.targets := by
      intro t
      rw [harranges.perm.mem_iff, mem_nodes_build]
    constructor
    · exact ⟨fun _ => acyclic_of_before harranges.before, fun _ => ⟨order, rfl⟩⟩
    · intro l hl
      cases hl
      exact harranges.perm.nodup_iff.2 (wellFormed_build additions).nodes_nodup
    · intro l hl
      cases hl
      exact hmem
    · intro l hl dependent dependency hadded
      cases hl
      exact harranges.before _ _ (edge_build.2 hadded)
    · intro e he
      cases he
    · intro hadded hnil
      -- Every addition names a target, and an empty order would hold none.
      obtain ⟨addition, haddition⟩ := List.exists_mem_of_ne_nil additions hadded
      obtain ⟨t, ht⟩ : ∃ t, t ∈ addition.targets := by
        cases addition <;> simp [Addition.targets]
      cases hnil
      exact List.not_mem_nil ((hmem t).2 (List.mem_flatMap.2 ⟨addition, haddition, ht⟩))

/-- Whatever is added in whatever order: the question for an order is answered by one exactly if
no target leads back to itself, and by the first cycle otherwise.  The same is true if the order
comes from any other sort that finds one when there is one. -/
theorem topologicalOrder_build (additions : List Addition) :
    AnswersOrder additions (build additions).topologicalOrder ∧
      ∀ found, (build additions).Sorts found →
        AnswersOrder additions ((build additions).answer found) := by
  constructor
  · exact answersOrder_answer (wellFormed_build additions).sorts_sorted?
  · intro found hfound
    exact answersOrder_answer hfound

/-- A target that depends on itself leaves no order. -/
example : (build [.dependency ⟨none, "s", "a"⟩ ⟨none, "s", "a"⟩]).topologicalOrder =
    .error ⟨[⟨none, "s", "a"⟩, ⟨none, "s", "a"⟩]⟩ := by
  decide +kernel

end SqlWorkflow.Dag
