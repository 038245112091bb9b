import SqlWorkflow.Proofs.Session.Arrangement

/-!
# What references resolve to

A reference may fit many entries, and entries may share a runtime target.  Such entries count as
one, the first of them standing for all; what is left is given in the order of the targets.

Other modules assume that no two entries share a runtime target.  Here nothing is assumed.

- **§1** The entries that a reference fits, by position (`mem_candidates_iff`).
- **§2** The first entry for each runtime target (`distinct_cons`).
- **§3** What stands for the entries that a reference fits (`Represents`): there is one such list
  (`represents_iff`), and it tells what the reference resolves to (`Represents.resolve_eq`).
-/

namespace SqlWorkflow

namespace Entry

variable {entries : List Entry} {r : TargetRef} {e : Entry} {i : Nat}

/-! ## §1 Candidates -/

/-- The reference fits the entry at the position: by canonical target or, if it fits none of the
canonical targets, by runtime target. -/
def FitsAt (entries : List Entry) (r : TargetRef) (i : Nat) (e : Entry) : Prop :=
  entries[i]? = some e ∧
    (r.Fits e.canonical ∨ (∀ e' ∈ entries, ¬ r.Fits e'.canonical) ∧ r.Fits e.runtime)

theorem mem_candidates_iff : (i, e) ∈ candidates entries r ↔ FitsAt entries r i e := by
  constructor
  · intro h
    have hfitting : e ∈ fitting entries r := by
      rw [← map_snd_candidates]
      exact List.mem_map_of_mem (f := (·.2)) h
    exact ⟨getElem?_of_mem_candidates h, (mem_fitting_iff.1 hfitting).2⟩
  · intro h
    obtain ⟨he, hcanonical | ⟨hnone, hruntime⟩⟩ := h
    · exact mem_candidates_of_fits he hcanonical
    · -- Runtime targets count only if no canonical target fits.
      have hempty : (positions (fun e => decide (r.Fits e.canonical)) entries).isEmpty = true := by
        rw [List.isEmpty_iff, ← List.map_eq_nil_iff (f := (·.2)), map_snd_positions]
        simpa using hnone
      simp only [candidates, hempty, if_true]
      exact mem_positions_iff.2 ⟨he, decide_eq_true hruntime⟩

/-- Candidates are given in the order of their positions. -/
theorem candidates_increasing (entries : List Entry) (r : TargetRef) :
    ((candidates entries r).map (·.1)).Pairwise (· < ·) := by
  unfold candidates
  simp only
  split
  · exact positions_increasing _ _
  · exact positions_increasing _ _

/-! ## §2 First entries -/

variable {cs : List (Nat × Entry)} {c d : Nat × Entry}

/-- A candidate is kept unless its target has been kept before. -/
theorem distinct_append_singleton (cs : List (Nat × Entry)) (c : Nat × Entry) :
    distinct (cs ++ [c]) =
      if (distinct cs).any (fun d => d.2.runtime = c.2.runtime) then distinct cs
      else distinct cs ++ [c] := by
  unfold distinct
  rw [List.foldl_append]
  rfl

theorem distinct_sublist (cs : List (Nat × Entry)) : (distinct cs).Sublist cs := by
  -- Candidates are kept from the front, so the induction takes them off the back.
  induction cs using List.reverseRecOn with
  | nil => exact List.Sublist.refl []
  | append_singleton cs c ih =>
    rw [distinct_append_singleton]
    split
    · exact ih.trans (List.sublist_append_left cs [c])
    · exact ih.append (List.Sublist.refl [c])

theorem pairwise_distinct (cs : List (Nat × Entry)) :
    (distinct cs).Pairwise fun c d => c.2.runtime ≠ d.2.runtime := by
  induction cs using List.reverseRecOn with
  | nil => exact List.Pairwise.nil
  | append_singleton cs c ih =>
    rw [distinct_append_singleton]
    split
    · exact ih
    · next hfresh =>
      rw [List.pairwise_append]
      -- It is kept because none of those before has its target.
      refine ⟨ih, List.pairwise_singleton _ c, ?_⟩
      intro d hd c' hc' heq
      obtain rfl := List.mem_singleton.1 hc'
      exact hfresh (List.any_eq_true.2 ⟨d, hd, decide_eq_true heq⟩)

/-- No target is lost. -/
theorem exists_mem_distinct (hc : c ∈ cs) : ∃ d ∈ distinct cs, d.2.runtime = c.2.runtime := by
  induction cs using List.reverseRecOn with
  | nil => cases hc
  | append_singleton cs c' ih =>
    rw [distinct_append_singleton]
    rcases List.mem_append.1 hc with hc | hc
    · obtain ⟨d, hd, hruntime⟩ := ih hc
      refine ⟨d, ?_, hruntime⟩
      split
      · exact hd
      · exact List.mem_append_left _ hd
    · obtain rfl := List.mem_singleton.1 hc
      split
      · next hknown => simpa using hknown
      · exact ⟨c, List.mem_append_right _ (List.mem_singleton_self c), rfl⟩

/-- Of entries with one target the first is kept. -/
theorem le_of_mem_distinct (hcs : (cs.map (·.1)).Pairwise (· < ·)) (hd : d ∈ distinct cs)
    (hc : c ∈ cs) (hruntime : c.2.runtime = d.2.runtime) : d.1 ≤ c.1 := by
  induction cs using List.reverseRecOn generalizing c d with
  | nil => cases hc
  | append_singleton cs last ih =>
    rw [List.map_append, List.pairwise_append] at hcs
    -- The last one stands behind all others, so it matters only where it is the first.
    have hlast : ∀ c ∈ cs, c.1 < last.1 := by
      intro c hc
      exact hcs.2.2 c.1 (List.mem_map_of_mem hc) last.1 (by simp)
    rw [distinct_append_singleton] at hd
    rcases List.mem_append.1 hc with hbefore | hc
    · split at hd
      · exact ih hcs.1 hd hbefore hruntime
      · next hfresh =>
        rcases List.mem_append.1 hd with hd | hd
        · exact ih hcs.1 hd hbefore hruntime
        · -- The last one would not have been kept.
          obtain rfl := List.mem_singleton.1 hd
          obtain ⟨kept, hkept, heq⟩ := exists_mem_distinct hbefore
          exact (hfresh (List.any_eq_true.2
            ⟨kept, hkept, decide_eq_true (heq.trans hruntime)⟩)).elim
    · obtain rfl := List.mem_singleton.1 hc
      split at hd
      · exact (hlast d ((distinct_sublist cs).mem hd)).le
      · rcases List.mem_append.1 hd with hd | hd
        · exact (hlast d ((distinct_sublist cs).mem hd)).le
        · obtain rfl := List.mem_singleton.1 hd
          exact Nat.le_refl _

/-! ## §3 Representatives -/

/-- What stands for the entries that a reference fits. -/
structure Represents (entries : List Entry) (r : TargetRef) (cs : List (Nat × Entry)) : Prop where
  fits : ∀ c ∈ cs, FitsAt entries r c.1 c.2
  /-- Of the entries with one runtime target it is the first. -/
  first : ∀ c ∈ cs, ∀ i e, FitsAt entries r i e → e.runtime = c.2.runtime → c.1 ≤ i
  complete : ∀ i e, FitsAt entries r i e → ∃ c ∈ cs, c.2.runtime = e.runtime
  /-- The runtime targets increase strictly. -/
  sorted : cs.Pairwise fun c d => c.2.runtime.le d.2.runtime = true ∧ c.2.runtime ≠ d.2.runtime

theorem represents_ranked (entries : List Entry) (r : TargetRef) :
    Represents entries r (ranked entries r) := by
  have hperm : (ranked entries r).Perm (distinct (candidates entries r)) :=
    List.mergeSort_perm _ _
  have hmem : ∀ c ∈ ranked entries r, c ∈ candidates entries r := by
    intro c hc
    exact (distinct_sublist _).mem (hperm.mem_iff.1 hc)
  constructor
  · intro c hc
    exact mem_candidates_iff.1 (hmem c hc)
  · intro c hc i e hfits hruntime
    exact le_of_mem_distinct (candidates_increasing entries r) (hperm.mem_iff.1 hc)
      (mem_candidates_iff.2 hfits) hruntime
  · -- Sorting loses nothing, and what is dropped before has a target that is kept.
    intro i e hfits
    obtain ⟨c, hc, hruntime⟩ := exists_mem_distinct (mem_candidates_iff.2 hfits)
    exact ⟨c, hperm.mem_iff.2 hc, hruntime⟩
  · have hle : (ranked entries r).Pairwise fun c d => c.2.runtime.le d.2.runtime = true := by
      apply List.pairwise_mergeSort
      · intro a b c
        exact Target.le_trans
      · intro a b
        exact Target.le_total _ _
    have hne : (ranked entries r).Pairwise fun c d => c.2.runtime ≠ d.2.runtime :=
      (hperm.pairwise_iff fun {c d} (h : c.2.runtime ≠ d.2.runtime) => h.symm).2
        (pairwise_distinct _)
    exact hle.and hne

/-- An entry stands for all entries with its runtime target, so there are no two of them. -/
theorem Represents.eq_of_runtime_eq {cs ds : List (Nat × Entry)} (hcs : Represents entries r cs)
    (hds : Represents entries r ds) (hc : c ∈ cs) (hd : d ∈ ds)
    (hruntime : c.2.runtime = d.2.runtime) : c = d := by
  -- Each of the two is the first with the target, so neither comes before the other.
  have hposition : c.1 = d.1 := Nat.le_antisymm
    (hcs.first c hc d.1 d.2 (hds.fits d hd) hruntime.symm)
    (hds.first d hd c.1 c.2 (hcs.fits c hc) hruntime)
  have hentry : entries[c.1]? = some d.2 := by
    rw [hposition]
    exact (hds.fits d hd).1
  exact Prod.ext hposition (Option.some.inj ((hcs.fits c hc).1.symm.trans hentry))

/-- There is one such list. -/
theorem Represents.eq {cs ds : List (Nat × Entry)} (hcs : Represents entries r cs)
    (hds : Represents entries r ds) : cs = ds := by
  have hsubset : ∀ {cs ds : List (Nat × Entry)}, Represents entries r cs →
      Represents entries r ds → ∀ c ∈ cs, c ∈ ds := by
    intro cs ds hcs hds c hc
    obtain ⟨d, hd, hruntime⟩ := hds.complete c.1 c.2 (hcs.fits c hc)
    rw [hcs.eq_of_runtime_eq hds hc hd hruntime.symm]
    exact hd
  have hnodup : ∀ {cs : List (Nat × Entry)}, Represents entries r cs → cs.Nodup := by
    intro cs hcs
    apply hcs.sorted.imp
    intro c d hcd heq
    exact hcd.2 (congrArg (fun c => c.2.runtime) heq)
  have hperm : cs.Perm ds := (List.perm_ext_iff_of_nodup (hnodup hcs) (hnodup hds)).2
    fun c => ⟨hsubset hcs hds c, hsubset hds hcs c⟩
  -- In both the targets are in order.
  apply hperm.eq_of_pairwise _ hcs.sorted hds.sorted
  intro c d hc hd hcd hdc
  exact absurd (Target.le_antisymm hcd.1 hdc.1) hcd.2

theorem represents_iff {cs : List (Nat × Entry)} :
    Represents entries r cs ↔ cs = ranked entries r := by
  constructor
  · intro h
    exact h.eq (represents_ranked entries r)
  · intro h
    exact h ▸ represents_ranked entries r

/-- The representatives tell what the reference resolves to. -/
theorem Represents.resolve_eq {cs : List (Nat × Entry)} (h : Represents entries r cs) :
    resolve entries r = .ofPositions (cs.map (·.1)) := by
  rw [resolve_eq_ofPositions, represents_iff.1 h]

theorem Represents.canonicalTargets_eq {cs : List (Nat × Entry)} (h : Represents entries r cs) :
    canonicalTargets entries (cs.map (·.1)) = cs.map (·.2.canonical) := by
  unfold canonicalTargets
  rw [List.filterMap_map, ← List.filterMap_eq_map]
  apply List.filterMap_congr
  intro c hc
  simp [(h.fits c hc).1]

end Entry

end SqlWorkflow
