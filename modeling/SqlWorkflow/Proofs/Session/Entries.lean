import SqlWorkflow.Session.Basic
import SqlWorkflow.Proofs.Graph.Construction

/-!
# What is known about the entries of a session

- **§1** An entry is named as the settings say.
- **§2** What a reference resolves to, said without positions: the entries that it fits
  (`fitting`).  If no two entries share a runtime target, a reference resolves to an entry exactly
  if it fits that entry alone (`candidates_of_resolve_eq_found`).
- **§3** What the absence of each kind of finding says about the entries.
- **§4** The graph of the dependencies of all entries (`edge_dag_iff`).
-/

namespace SqlWorkflow.Entry

variable {config : ProjectConfig} {rs : List Registration} {entries : List Entry} {e : Entry}

/-! ## §1 The entries of a list of registrations -/

/-- The entry has the names that the settings give to its registration. -/
structure Named (config : ProjectConfig) (e : Entry) : Prop where
  canonical_eq : e.canonical = canonicalTarget config e.registration
  runtime_eq : e.runtime = runtimeTarget config e.registration.payload.kind e.canonical

theorem named_ofRegistration (config : ProjectConfig) (r : Registration) (parent : Option Nat) :
    Named config (ofRegistration config r parent) :=
  ⟨rfl, rfl⟩

/-- The entries of the registrations themselves. -/
def declared (config : ProjectConfig) (rs : List Registration) : List Entry :=
  rs.map fun r => ofRegistration config r none

theorem ofRegistrations_eq (config : ProjectConfig) (rs : List Registration) :
    ofRegistrations config rs =
      declared config rs ++
        (declared config rs).zipIdx.flatMap fun (e, i) => checkEntries config e i :=
  rfl

/-- What is checked of an entry: nothing if its keys are given in both possible ways. -/
def checkedAssertions (e : Entry) : TableAssertions :=
  if e.keysTwice then {} else e.assertions?.getD {}

/-- The entries that check an entry, one for each check. -/
theorem checkEntries_eq (config : ProjectConfig) (e : Entry) (position : Nat) :
    checkEntries config e position =
      (checks e.canonical e.checkedAssertions).map fun (name, query) =>
        ofRegistration config (checkRegistration e name query) (some position) := by
  unfold checkEntries checkedAssertions
  cases e.assertions? with
  | none => cases e.keysTwice <;> rfl
  | some a =>
    simp only [Option.getD_some]
    split
    · rfl
    · rfl

theorem mem_checkEntries {table : Entry} {position : Nat}
    (h : e ∈ checkEntries config table position) :
    ∃ name query, (name, query) ∈ checks table.canonical table.checkedAssertions ∧
      e = ofRegistration config (checkRegistration table name query) (some position) := by
  rw [checkEntries_eq] at h
  obtain ⟨⟨name, query⟩, hcheck, rfl⟩ := List.mem_map.1 h
  exact ⟨name, query, hcheck, rfl⟩

/-- The entries of the registrations themselves come first. -/
theorem getElem?_ofRegistrations {i : Nat} (h : (declared config rs)[i]? = some e) :
    (ofRegistrations config rs)[i]? = some e := by
  rw [ofRegistrations_eq, List.getElem?_append_left (List.getElem?_eq_some_iff.1 h).1]
  exact h

/-- An entry is that of a registration or one that checks the table at some position. -/
theorem mem_ofRegistrations (h : e ∈ ofRegistrations config rs) :
    (∃ r ∈ rs, e = ofRegistration config r none) ∨
      ∃ position table name query, (declared config rs)[position]? = some table ∧
        (name, query) ∈ checks table.canonical table.checkedAssertions ∧
        e = ofRegistration config (checkRegistration table name query) (some position) := by
  rw [ofRegistrations_eq] at h
  rcases List.mem_append.1 h with hdeclared | hgenerated
  · obtain ⟨r, hr, rfl⟩ := List.mem_map.1 hdeclared
    exact .inl ⟨r, hr, rfl⟩
  · obtain ⟨⟨table, position⟩, htable, he⟩ := List.mem_flatMap.1 hgenerated
    obtain ⟨name, query, hcheck, rfl⟩ := mem_checkEntries he
    exact .inr ⟨position, table, name, query, List.mem_zipIdx_iff_getElem?.1 htable, hcheck, rfl⟩

theorem named_of_mem (h : e ∈ ofRegistrations config rs) : Named config e := by
  rcases mem_ofRegistrations h with ⟨r, -, rfl⟩ | ⟨_, _, _, _, -, -, rfl⟩
  · exact named_ofRegistration config r none
  · exact named_ofRegistration config _ _

theorem ofRegistration_mem {r : Registration} (h : r ∈ rs) :
    ofRegistration config r none ∈ ofRegistrations config rs :=
  List.mem_append_left _ (List.mem_map.2 ⟨r, h, rfl⟩)

theorem map_fst_zipIdx {β : Type} (f : Entry → β) (entries : List Entry) :
    (entries.zipIdx.map fun p => f p.1) = entries.map f := by
  rw [← Function.comp_def f, ← List.map_map]
  exact congrArg (List.map f) (List.zipIdx_map_fst 0 entries)

/-- What is said of the checks of every entry is said of all generated entries. -/
theorem map_ofRegistrations {α : Type} {say : Entry → α} {sayChecks : Entry → List α}
    (h : ∀ table position, (declared config rs)[position]? = some table →
      (checkEntries config table position).map say = sayChecks table) :
    (ofRegistrations config rs).map say =
      (declared config rs).map say ++ (declared config rs).flatMap sayChecks := by
  rw [ofRegistrations_eq, List.map_append, List.map_flatMap]
  congr 1
  conv_rhs => rw [← List.zipIdx_map_fst 0 (declared config rs), List.flatMap_map]
  exact List.flatMap_congr fun p hp => h p.1 p.2 (List.mem_zipIdx_iff_getElem?.1 hp)

/-! ## §2 Resolution -/

/-- The entries that a reference fits: by canonical target or, if there are none, by runtime
target. -/
def fitting (entries : List Entry) (r : TargetRef) : List Entry :=
  if (entries.filter fun e => decide (r.Fits e.canonical)).isEmpty then
    entries.filter fun e => decide (r.Fits e.runtime)
  else entries.filter fun e => decide (r.Fits e.canonical)

theorem mem_fitting_iff {r : TargetRef} :
    e ∈ fitting entries r ↔ e ∈ entries ∧
      (r.Fits e.canonical ∨ (∀ e' ∈ entries, ¬ r.Fits e'.canonical) ∧ r.Fits e.runtime) := by
  unfold fitting
  split
  · next hnone =>
    have hnone : ∀ e' ∈ entries, ¬ r.Fits e'.canonical := by simpa using hnone
    simp only [List.mem_filter, decide_eq_true_eq]
    exact ⟨fun ⟨he, hfits⟩ => ⟨he, .inr ⟨hnone, hfits⟩⟩,
      fun ⟨he, hfits⟩ => ⟨he, hfits.elim (absurd · (hnone e he)) (·.2)⟩⟩
  · next hsome =>
    obtain ⟨e', he', hfits'⟩ : ∃ e' ∈ entries, r.Fits e'.canonical := by simpa using hsome
    simp only [List.mem_filter, decide_eq_true_eq]
    exact ⟨fun ⟨he, hfits⟩ => ⟨he, .inl hfits⟩,
      fun ⟨he, hfits⟩ => ⟨he, hfits.elim id fun hnone => absurd hfits' (hnone.1 e' he')⟩⟩

theorem mem_positions_iff {p : Entry → Bool} {i : Nat} :
    (i, e) ∈ positions p entries ↔ entries[i]? = some e ∧ p e = true := by
  simp only [positions, List.mem_map, List.mem_filter, Prod.exists, Prod.mk.injEq]
  constructor
  · rintro ⟨e', i', ⟨hmem, hp⟩, rfl, rfl⟩
    exact ⟨List.mem_zipIdx_iff_getElem?.1 hmem, hp⟩
  · rintro ⟨hget, hp⟩
    exact ⟨e, i, ⟨List.mem_zipIdx_iff_getElem?.2 hget, hp⟩, rfl, rfl⟩

theorem map_snd_positions (p : Entry → Bool) (entries : List Entry) :
    (positions p entries).map (·.2) = entries.filter p := by
  have hfst : entries.zipIdx.map (·.1) = entries := List.zipIdx_map_fst 0 entries
  conv_rhs => rw [← hfst, List.filter_map]
  simp [positions, Function.comp_def]

/-- Positions are given in their order. -/
theorem positions_increasing (p : Entry → Bool) (entries : List Entry) :
    ((positions p entries).map (·.1)).Pairwise (· < ·) := by
  have hall : (entries.zipIdx.map (·.2)).Pairwise (· < ·) := by
    rw [List.zipIdx_map_snd]
    exact List.pairwise_lt_range'
  unfold positions
  rw [List.map_map]
  exact hall.sublist (List.filter_sublist.map _)

theorem map_snd_candidates (entries : List Entry) (r : TargetRef) :
    (candidates entries r).map (·.2) = fitting entries r := by
  have hempty : (positions (fun e => decide (r.Fits e.canonical)) entries).isEmpty =
      (entries.filter fun e => decide (r.Fits e.canonical)).isEmpty := by
    rw [← map_snd_positions, List.isEmpty_map]
  simp only [candidates, fitting, hempty]
  split <;> rw [map_snd_positions]

/-- A candidate stands at its position. -/
theorem getElem?_of_mem_candidates {r : TargetRef} {i : Nat} (h : (i, e) ∈ candidates entries r) :
    entries[i]? = some e := by
  unfold candidates at h
  simp only at h
  split at h
  · exact (mem_positions_iff.1 h).1
  · exact (mem_positions_iff.1 h).1

/-- If a reference fits a canonical target, the candidates are the entries whose canonical target it
fits. -/
theorem candidates_of_fits {r : TargetRef} (he : e ∈ entries) (hfits : r.Fits e.canonical) :
    candidates entries r = positions (fun e => decide (r.Fits e.canonical)) entries := by
  obtain ⟨i, hi⟩ := List.mem_iff_getElem?.1 he
  have hmem : (i, e) ∈ positions (fun e => decide (r.Fits e.canonical)) entries :=
    mem_positions_iff.2 ⟨hi, decide_eq_true hfits⟩
  have hne : (positions (fun e => decide (r.Fits e.canonical)) entries).isEmpty = false := by
    rw [List.isEmpty_eq_false_iff]
    exact List.ne_nil_of_mem hmem
  simp [candidates, hne]

theorem mem_candidates_of_fits {r : TargetRef} {i : Nat} (he : entries[i]? = some e)
    (hfits : r.Fits e.canonical) : (i, e) ∈ candidates entries r := by
  rw [candidates_of_fits (List.mem_of_getElem? he) hfits]
  exact mem_positions_iff.2 ⟨he, decide_eq_true hfits⟩

/-- Nothing is dropped from candidates without a common runtime target. -/
theorem distinct_eq_self {cs : List (Nat × Entry)} (h : (cs.map (·.2.runtime)).Nodup) :
    distinct cs = cs := by
  -- Over what has been kept so far: it holds no target of what is still to come.
  have key : ∀ done rest : List (Nat × Entry), ((done ++ rest).map (·.2.runtime)).Nodup →
      rest.foldl (fun acc c =>
        if acc.any (fun d => d.2.runtime = c.2.runtime) then acc else acc ++ [c]) done =
        done ++ rest := by
    intro done rest
    induction rest generalizing done with
    | nil => simp
    | cons c rest ih =>
      intro hnodup
      have hfresh : done.any (fun d => decide (d.2.runtime = c.2.runtime)) = false := by
        rw [List.any_eq_false]
        intro d hd heq
        rw [List.map_append, List.map_cons] at hnodup
        have hdisjoint := (List.nodup_append.1 hnodup).2.2
        exact hdisjoint _ (List.mem_map_of_mem hd) _ List.mem_cons_self (of_decide_eq_true heq)
      rw [List.foldl_cons, hfresh, if_neg Bool.false_ne_true, ih, List.append_assoc]
      · rfl
      · simpa using hnodup
  exact key [] cs (by simpa using h)

theorem fitting_sublist (entries : List Entry) (r : TargetRef) :
    (fitting entries r).Sublist entries := by
  unfold fitting
  split <;> exact List.filter_sublist

theorem candidates_runtime_nodup (h : (entries.map (·.runtime)).Nodup) (r : TargetRef) :
    ((candidates entries r).map (·.2.runtime)).Nodup := by
  have hmap : (candidates entries r).map (·.2.runtime) = (fitting entries r).map (·.runtime) := by
    rw [← map_snd_candidates, List.map_map]
    rfl
  rw [hmap]
  exact h.sublist ((fitting_sublist entries r).map _)

/-- If no two entries share a runtime target, a reference that resolves to an entry has that entry
as its one candidate. -/
theorem candidates_of_resolve_eq_found (h : (entries.map (·.runtime)).Nodup) {r : TargetRef}
    {i : Nat} (hr : resolve entries r = .found i) : ∃ e, candidates entries r = [(i, e)] := by
  unfold resolve at hr
  rw [distinct_eq_self (candidates_runtime_nodup h r)] at hr
  split at hr
  · cases hr
  · next i' e hcandidates =>
    cases hr
    exact ⟨e, hcandidates⟩
  · cases hr

/-! ## §3 Nothing to find -/

theorem findings_eq_nil_iff :
    Session.findings entries = [] ↔
      keyFindings entries = [] ∧ componentFindings entries = [] ∧
        duplicateFindings entries = [] ∧ (∀ e ∈ entries, referenceFindings entries e = []) ∧
        cycleFindings entries = [] ∧ outputFindings entries = [] := by
  simp only [Session.findings, List.append_eq_nil_iff, List.flatMap_eq_nil_iff, and_assoc]

theorem mem_collisions_iff {targets : List Target} {i j : Nat} :
    (i, j) ∈ collisions targets ↔
      ∃ t, targets[j]? = some t ∧ targets.idxOf t = i ∧ i < j := by
  simp only [collisions, List.mem_filterMap, Prod.exists, List.mem_zipIdx_iff_getElem?]
  constructor
  · rintro ⟨t, j', hget, h⟩
    split at h
    · next hlt =>
      cases h
      exact ⟨t, hget, rfl, hlt⟩
    · cases h
  · rintro ⟨t, hget, rfl, hlt⟩
    exact ⟨t, j, hget, by simp [hlt]⟩

/-- Targets without collisions are pairwise different, and the other way around. -/
theorem collisions_eq_nil_iff {targets : List Target} :
    collisions targets = [] ↔ targets.Nodup := by
  rw [List.eq_nil_iff_forall_not_mem, List.nodup_iff_injective_getElem]
  constructor
  · intro hnone i j heq
    by_contra hne
    -- Of two positions with one target the later one collides with an earlier one.
    have later : ∀ a b : Fin targets.length, targets[a] = targets[b] → a < b → False := by
      intro a b hab hlt
      refine hnone (targets.idxOf targets[b], b) (mem_collisions_iff.2 ⟨targets[b], ?_, rfl, ?_⟩)
      · exact List.getElem?_eq_getElem b.isLt
      · have hbefore : targets[b] ∈ targets.take b :=
          hab ▸ List.mem_take_iff_getElem.2 ⟨a, by omega, rfl⟩
        exact (List.mem_take_iff_idxOf_lt (List.getElem_mem b.isLt)).1 hbefore
    rcases lt_or_gt_of_ne hne with hlt | hgt
    · exact later i j heq hlt
    · exact later j i heq.symm hgt
  · rintro hinj ⟨i, j⟩ hmem
    obtain ⟨t, hget, hidx, hlt⟩ := mem_collisions_iff.1 hmem
    obtain ⟨hj, rfl⟩ := List.getElem?_eq_some_iff.1 hget
    have hi : i < targets.length := Nat.lt_trans hlt hj
    have heq : targets[i] = targets[j] := by
      subst hidx
      exact List.getElem_idxOf hi
    have := congrArg Fin.val (@hinj ⟨i, hi⟩ ⟨j, hj⟩ heq)
    simp only at this
    omega

theorem duplicateFinding_isSome (targetOf : Entry → Target) {i j : Nat}
    (h : (i, j) ∈ collisions (entries.map targetOf)) :
    (duplicateFinding targetOf entries (i, j)).isSome := by
  obtain ⟨t, hget, -, hlt⟩ := mem_collisions_iff.1 h
  rw [List.getElem?_map, Option.map_eq_some_iff] at hget
  obtain ⟨second, hsecond, -⟩ := hget
  have hi : i < entries.length := Nat.lt_trans hlt (List.getElem?_eq_some_iff.1 hsecond).1
  simp [duplicateFinding, hsecond, List.getElem?_eq_getElem hi]

theorem collisions_eq_nil_of_filterMap {targetOf : Entry → Target}
    (h : (collisions (entries.map targetOf)).filterMap (duplicateFinding targetOf entries) = []) :
    collisions (entries.map targetOf) = [] := by
  refine List.eq_nil_iff_forall_not_mem.2 fun ⟨i, j⟩ hmem => ?_
  have hnone := List.filterMap_eq_nil_iff.1 h (i, j) hmem
  exact absurd (duplicateFinding_isSome targetOf hmem) (by simp [hnone])

/-- There is nothing to say about uniqueness exactly if no two entries share a runtime target and
no two share a canonical one. -/
theorem duplicateFindings_eq_nil_iff :
    duplicateFindings entries = [] ↔
      (entries.map (·.runtime)).Nodup ∧ (entries.map (·.canonical)).Nodup := by
  simp only [duplicateFindings, List.append_eq_nil_iff]
  constructor
  · rintro ⟨hruntime, hcanonical⟩
    -- Without runtime collisions no canonical one is passed over.
    have hnone := collisions_eq_nil_of_filterMap hruntime
    rw [hnone] at hcanonical
    simp only [List.contains_nil, Bool.not_false, List.filter_true] at hcanonical
    exact ⟨collisions_eq_nil_iff.1 hnone,
      collisions_eq_nil_iff.1 (collisions_eq_nil_of_filterMap hcanonical)⟩
  · rintro ⟨hruntime, hcanonical⟩
    simp [collisions_eq_nil_iff.2 hruntime, collisions_eq_nil_iff.2 hcanonical]

theorem componentFindings_eq_nil_iff :
    componentFindings entries = [] ↔ ∀ e ∈ entries, e.canonical.componentErrors = [] := by
  simp [componentFindings, List.flatMap_eq_nil_iff]

theorem referenceFindings_eq_nil_iff :
    referenceFindings entries e = [] ↔
      ∀ r ∈ e.registration.dependencies, ∃ i, resolve entries r = .found i := by
  simp only [referenceFindings, List.filterMap_eq_nil_iff]
  -- One finding for each reference that is missing or ambiguous, none for one that is found.
  refine forall₂_congr fun r _ => ?_
  cases resolve entries r <;> simp

theorem cycleFindings_eq_nil_iff : cycleFindings entries = [] ↔ (dag entries).cycles = [] := by
  simp [cycleFindings]

/-! ## §4 Dependencies -/

theorem mem_withoutRepeats_iff {t : Target} {ts : List Target} :
    t ∈ withoutRepeats ts ↔ t ∈ ts := by
  induction ts with
  | nil => rfl
  | cons s ts ih =>
    rw [withoutRepeats]
    split
    · next hs =>
      rw [ih, List.mem_cons]
      exact ⟨.inr, fun h => h.elim (· ▸ hs) id⟩
    · rw [List.mem_cons, List.mem_cons, ih]

/-- An entry depends on what its references resolve to. -/
theorem mem_dependencyTargets_iff {t : Target} :
    t ∈ dependencyTargets entries e ↔
      ∃ r ∈ e.registration.dependencies, ∃ i, resolve entries r = .found i ∧
        ∃ d, entries[i]? = some d ∧ d.runtime = t := by
  simp only [dependencyTargets, List.mem_mergeSort, mem_withoutRepeats_iff, List.mem_filterMap]
  refine exists_congr fun r => and_congr_right fun _ => ?_
  cases resolve entries r <;> simp

/-- What an entry adds to the graph of dependencies: itself, and what it depends on. -/
def additions (entries : List Entry) (e : Entry) : List Dag.Addition :=
  .node e.runtime :: (dependencyTargets entries e).map (.dependency e.runtime ·)

theorem dag_eq_build (entries : List Entry) :
    dag entries = Dag.build (entries.flatMap (additions entries)) := by
  rw [Dag.build, List.foldl_flatMap]
  simp only [additions, List.foldl_cons, List.foldl_map]
  rfl

theorem dag_wellFormed (entries : List Entry) : (dag entries).WellFormed := by
  rw [dag_eq_build]
  exact Dag.wellFormed_build _

/-- An edge of the graph leads from a dependency to the entry that depends on it. -/
theorem edge_dag_iff {a b : Target} :
    (dag entries).Edge a b ↔ ∃ e ∈ entries, a ∈ dependencyTargets entries e ∧ b = e.runtime := by
  rw [dag_eq_build, Dag.edge_build, List.mem_flatMap]
  refine exists_congr fun e => and_congr_right fun _ => ?_
  simp [additions, and_comm, eq_comm]

theorem mem_nodes_dag_iff {s : Target} :
    s ∈ (dag entries).nodes ↔
      ∃ e ∈ entries, s = e.runtime ∨ s ∈ dependencyTargets entries e := by
  rw [dag_eq_build, Dag.mem_nodes_build, List.flatMap_assoc, List.mem_flatMap]
  refine exists_congr fun e => and_congr_right fun _ => ?_
  -- A dependency names the entry once more.
  simp only [additions, List.flatMap_cons, List.flatMap_map, Dag.Addition.targets,
    List.mem_append, List.mem_flatMap, List.mem_cons, List.not_mem_nil, or_false]
  constructor
  · rintro (rfl | ⟨d, hd, rfl | rfl⟩)
    · exact .inl rfl
    · exact .inr hd
    · exact .inl rfl
  · rintro (rfl | hs)
    · exact .inl rfl
    · exact .inr ⟨s, hs, .inl rfl⟩

end SqlWorkflow.Entry
