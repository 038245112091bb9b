import SqlWorkflow.Proofs.Graph.Renaming
import SqlWorkflow.Proofs.Session.Arrangement
import SqlWorkflow.Proofs.Session.ErrorKinds
import SqlWorkflow.Proofs.Session.Soundness

/-!
# Affixes do not change what depends on what

Affixes are put on runtime targets only.  If they bring no two actions together, and authors refer
to actions by canonical target, they change the names of the actions of a graph and nothing of its
structure (`Session.compile_withAffixes`).

- **§1** The entries of a session with other affixes are the same entries, renamed.
- **§2** References resolve to the same positions (`Renaming.resolve_same`).
- **§3** The graph of dependencies is the same up to names (`Renaming.renames_dag`).
- **§4** As many findings of each kind.
- **§5** The main statement.
-/

namespace SqlWorkflow

/-! ## §1 Other affixes -/

/-- The settings with other affixes. -/
def ProjectConfig.withAffixes (config : ProjectConfig)
    (databaseSuffix schemaSuffix tablePrefix : Option String) : ProjectConfig :=
  { config with databaseSuffix, schemaSuffix, tablePrefix }

namespace Entry

/-- The entry with the runtime target that the settings give it. -/
def renamed (config : ProjectConfig) (e : Entry) : Entry :=
  { e with runtime := runtimeTarget config e.registration.payload.kind e.canonical }

section WithAffixes

variable (config : ProjectConfig) (databaseSuffix schemaSuffix tablePrefix : Option String)

/-- Canonical targets have no affixes. -/
theorem ofRegistration_withAffixes (r : Registration) (parent : Option Nat) :
    ofRegistration (config.withAffixes databaseSuffix schemaSuffix tablePrefix) r parent =
      (ofRegistration config r parent).renamed
        (config.withAffixes databaseSuffix schemaSuffix tablePrefix) :=
  rfl

theorem declared_withAffixes (rs : List Registration) :
    declared (config.withAffixes databaseSuffix schemaSuffix tablePrefix) rs =
      (declared config rs).map
        (renamed (config.withAffixes databaseSuffix schemaSuffix tablePrefix)) := by
  unfold declared
  rw [List.map_map]
  exact List.map_congr_left fun r _ =>
    ofRegistration_withAffixes config databaseSuffix schemaSuffix tablePrefix r none

theorem checkEntries_withAffixes (e : Entry) (position : Nat) :
    checkEntries (config.withAffixes databaseSuffix schemaSuffix tablePrefix)
        (e.renamed (config.withAffixes databaseSuffix schemaSuffix tablePrefix)) position =
      (checkEntries config e position).map
        (renamed (config.withAffixes databaseSuffix schemaSuffix tablePrefix)) := by
  rw [checkEntries_eq, checkEntries_eq, List.map_map]
  rfl

theorem ofRegistrations_withAffixes (rs : List Registration) :
    ofRegistrations (config.withAffixes databaseSuffix schemaSuffix tablePrefix) rs =
      (ofRegistrations config rs).map
        (renamed (config.withAffixes databaseSuffix schemaSuffix tablePrefix)) := by
  rw [ofRegistrations_eq, ofRegistrations_eq, declared_withAffixes, List.map_append,
    List.map_flatMap,
    List.zipIdx_map, List.flatMap_map]
  congr 1
  apply List.flatMap_congr
  intro p _
  exact checkEntries_withAffixes config databaseSuffix schemaSuffix tablePrefix p.1 p.2

end WithAffixes

/-! ## §2 Resolution -/

/-- `f` changes nothing but runtime targets.  No two entries share one, before or after, and every
reference fits a canonical target. -/
structure Renaming (f : Entry → Entry) (es : List Entry) : Prop where
  registration_eq : ∀ e, (f e).registration = e.registration
  canonical_eq : ∀ e, (f e).canonical = e.canonical
  parent_eq : ∀ e, (f e).parent = e.parent
  nodup : (es.map (·.runtime)).Nodup
  nodup' : ((es.map f).map (·.runtime)).Nodup
  fits : ∀ e ∈ es, ∀ r ∈ e.registration.dependencies, ∃ d ∈ es, r.Fits d.canonical

/-- The reference resolves to the same entry in both lists, or has the same candidates. -/
def SameResolution (es es' : List Entry) (r : TargetRef) : Prop :=
  (∃ i, resolve es r = .found i ∧ resolve es' r = .found i) ∨
    ∃ l l', resolve es r = .ambiguous l ∧ resolve es' r = .ambiguous l' ∧ l.Perm l'

/-- The positions of the candidates, in any order. -/
theorem ranked_perm_candidates {es : List Entry} (hnodup : (es.map (·.runtime)).Nodup)
    (r : TargetRef) : ((ranked es r).map (·.1)).Perm ((candidates es r).map (·.1)) := by
  unfold ranked
  rw [distinct_eq_self (candidates_runtime_nodup hnodup r)]
  exact (List.mergeSort_perm _ _).map _

namespace Renaming

variable {f : Entry → Entry} {es : List Entry} {r : TargetRef} {e d : Entry} {i : Nat}

/-- What fits a canonical target is at the same positions. -/
theorem map_fst_candidates (h : Renaming f es) (hfits : ∃ d ∈ es, r.Fits d.canonical) :
    (candidates (es.map f) r).map (·.1) = (candidates es r).map (·.1) := by
  obtain ⟨d, hd, hfits⟩ := hfits
  have hfits' : r.Fits (f d).canonical := by rwa [h.canonical_eq]
  rw [candidates_of_fits hd hfits, candidates_of_fits (List.mem_map_of_mem hd) hfits']
  simp only [positions, List.zipIdx_map, List.filter_map, List.map_map]
  congr 1
  apply List.filter_congr
  intro p _
  simp [h.canonical_eq]

/-- A reference that fits a canonical target resolves in the same way. -/
theorem resolve_same (h : Renaming f es) (hfits : ∃ d ∈ es, r.Fits d.canonical) :
    SameResolution es (es.map f) r := by
  have hperm := ranked_perm_candidates h.nodup r
  have hperm' := ranked_perm_candidates h.nodup' r
  rw [h.map_fst_candidates hfits] at hperm'
  have hsame := hperm.trans hperm'.symm
  have hne : (ranked es r).map (·.1) ≠ [] := by
    intro hnil
    rw [hnil, List.nil_perm, List.map_eq_nil_iff] at hperm
    obtain ⟨d, hd, hfits⟩ := hfits
    obtain ⟨i, hi⟩ := List.mem_iff_getElem?.1 hd
    have hmem := mem_candidates_of_fits hi hfits
    rw [hperm] at hmem
    cases hmem
  unfold SameResolution
  rw [resolve_eq_ofPositions, resolve_eq_ofPositions]
  -- One candidate is found; of several only the order can differ.
  generalize (ranked es r).map (·.1) = l at hsame hne
  generalize (ranked (es.map f) r).map (·.1) = l' at hsame
  match l, l', hsame.length_eq with
  | [], _, _ => exact absurd rfl hne
  | [i], [j], _ =>
    have hij : i = j := by simpa using hsame
    exact .inl ⟨i, rfl, by rw [hij]; rfl⟩
  | i :: j :: l, i' :: j' :: l', _ => exact .inr ⟨_, _, rfl, rfl, hsame⟩

theorem resolve_dependency (h : Renaming f es) (he : e ∈ es)
    (hr : r ∈ e.registration.dependencies) : SameResolution es (es.map f) r :=
  h.resolve_same (h.fits e he r hr)

/-! ## §3 The graph of dependencies -/

theorem eq_of_runtime_eq (h : Renaming f es) (he : e ∈ es) (hd : d ∈ es)
    (heq : e.runtime = d.runtime) : e = d :=
  List.inj_on_of_nodup_map h.nodup he hd heq

theorem eq_of_renamed_eq (h : Renaming f es) (he : e ∈ es) (hd : d ∈ es)
    (heq : (f e).runtime = (f d).runtime) : e = d := by
  have hnodup := h.nodup'
  rw [List.map_map] at hnodup
  exact List.inj_on_of_nodup_map hnodup he hd heq

/-- An entry depends on the same entries. -/
theorem mem_dependencyTargets_iff (h : Renaming f es) (he : e ∈ es) (hd : d ∈ es) :
    (f d).runtime ∈ dependencyTargets (es.map f) (f e) ↔ d.runtime ∈ dependencyTargets es e := by
  rw [Entry.mem_dependencyTargets_iff, Entry.mem_dependencyTargets_iff, h.registration_eq]
  refine exists_congr fun r => and_congr_right fun hr => exists_congr fun i => ?_
  have hfound : resolve (es.map f) r = .found i ↔ resolve es r = .found i := by
    rcases h.resolve_dependency he hr with ⟨j, hj, hj'⟩ | ⟨l, l', hl, hl', -⟩
    · rw [hj, hj']
    · simp [hl, hl']
  rw [hfound]
  apply and_congr_right
  intro _
  -- An entry is told by its runtime target, under the one name and under the other.
  simp only [List.getElem?_map, Option.map_eq_some_iff, exists_exists_and_eq_and]
  refine exists_congr fun c => and_congr_right fun hc => ?_
  have hmem := List.mem_of_getElem? hc
  constructor
  · intro heq
    rw [h.eq_of_renamed_eq hmem hd heq]
  · intro heq
    rw [h.eq_of_runtime_eq hmem hd heq]

/-- The new name of a target. -/
def nameAfter (f : Entry → Entry) (es : List Entry) (t : Target) : Target :=
  ((es.find? fun e => e.runtime = t).map fun e => (f e).runtime).getD t

theorem nameAfter_runtime (h : Renaming f es) (he : e ∈ es) :
    nameAfter f es e.runtime = (f e).runtime := by
  unfold nameAfter
  cases hfound : es.find? fun d => decide (d.runtime = e.runtime) with
  | none =>
    have hne := List.find?_eq_none.1 hfound e he
    simp at hne
  | some d =>
    have heq : d.runtime = e.runtime := by simpa using List.find?_some hfound
    rw [h.eq_of_runtime_eq (List.mem_of_find?_eq_some hfound) he heq]
    rfl

end Renaming

/-- The nodes of the graph of dependencies are the runtime targets. -/
theorem mem_nodes_dag_iff_runtime {es : List Entry} {t : Target} :
    t ∈ (dag es).nodes ↔ ∃ e ∈ es, e.runtime = t := by
  rw [mem_nodes_dag_iff]
  constructor
  · rintro ⟨e, he, rfl | ht⟩
    · exact ⟨e, he, rfl⟩
    · obtain ⟨_, -, i, -, d, hd, rfl⟩ := mem_dependencyTargets_iff.1 ht
      exact ⟨d, List.mem_of_getElem? hd, rfl⟩
  · rintro ⟨e, he, rfl⟩
    exact ⟨e, he, .inl rfl⟩

namespace Renaming

variable {f : Entry → Entry} {es : List Entry} {r : TargetRef} {e d : Entry} {i : Nat}

theorem edge_dag_iff (h : Renaming f es) (hd : d ∈ es) (he : e ∈ es) :
    (dag (es.map f)).Edge (f d).runtime (f e).runtime ↔
      (dag es).Edge d.runtime e.runtime := by
  rw [Entry.edge_dag_iff, Entry.edge_dag_iff]
  constructor
  · rintro ⟨_, hmem, hdep, heq⟩
    obtain ⟨c, hc, rfl⟩ := List.mem_map.1 hmem
    cases h.eq_of_renamed_eq he hc heq
    exact ⟨e, he, (h.mem_dependencyTargets_iff he hd).1 hdep, rfl⟩
  · rintro ⟨c, hc, hdep, heq⟩
    cases h.eq_of_runtime_eq he hc heq
    exact ⟨f e, List.mem_map_of_mem he, (h.mem_dependencyTargets_iff he hd).2 hdep, rfl⟩

/-- The graph of dependencies is the same up to the names of the entries. -/
theorem renames_dag (h : Renaming f es) :
    Dag.Renames (nameAfter f es) (dag es) (dag (es.map f)) where
  nodes := by
    -- Neither graph lists a node twice, so it is enough that the nodes are the same.
    have hwf := dag_wellFormed es
    have hwf' := dag_wellFormed (es.map f)
    have hnodup : ((dag es).nodes.map (nameAfter f es)).Nodup := by
      apply hwf.nodes_nodup.map_on
      intro a ha b hb heq
      obtain ⟨e, he, rfl⟩ := mem_nodes_dag_iff_runtime.1 ha
      obtain ⟨d, hd, rfl⟩ := mem_nodes_dag_iff_runtime.1 hb
      rw [h.nameAfter_runtime he, h.nameAfter_runtime hd] at heq
      rw [h.eq_of_renamed_eq he hd heq]
    apply (List.perm_ext_iff_of_nodup hnodup hwf'.nodes_nodup).2
    intro t
    simp only [List.mem_map, mem_nodes_dag_iff_runtime, exists_exists_and_eq_and]
    refine exists_congr fun e => and_congr_right fun he => ?_
    rw [h.nameAfter_runtime he]
  injOn := by
    intro a ha b hb heq
    obtain ⟨e, he, rfl⟩ := mem_nodes_dag_iff_runtime.1 ha
    obtain ⟨d, hd, rfl⟩ := mem_nodes_dag_iff_runtime.1 hb
    rw [h.nameAfter_runtime he, h.nameAfter_runtime hd] at heq
    rw [h.eq_of_renamed_eq he hd heq]
  edge_iff := by
    intro a ha b hb
    obtain ⟨d, hd, rfl⟩ := mem_nodes_dag_iff_runtime.1 ha
    obtain ⟨e, he, rfl⟩ := mem_nodes_dag_iff_runtime.1 hb
    rw [h.nameAfter_runtime hd, h.nameAfter_runtime he]
    exact h.edge_dag_iff hd he

/-! ## §4 Findings -/

/-- A reference is complained about for the same reason, if at all. -/
theorem map_kind_referenceFindings (h : Renaming f es) (he : e ∈ es) :
    (referenceFindings (es.map f) (f e)).map (·.cause.kind) =
      (referenceFindings es e).map (·.cause.kind) := by
  unfold referenceFindings
  rw [h.registration_eq, List.map_filterMap, List.map_filterMap]
  apply List.filterMap_congr
  intro r hr
  rcases h.resolve_dependency he hr with ⟨i, hi, hi'⟩ | ⟨l, l', hl, hl', -⟩
  · simp only [hi, hi']
  · simp only [hl, hl']
    rfl

theorem map_kind_flatMap_referenceFindings (h : Renaming f es) :
    ((es.map f).flatMap (referenceFindings (es.map f))).map (·.cause.kind) =
      (es.flatMap (referenceFindings es)).map (·.cause.kind) := by
  rw [List.flatMap_map, List.map_flatMap, List.map_flatMap]
  exact List.flatMap_congr fun e he => h.map_kind_referenceFindings he

/-- There are as many findings of a kind, except those that are about texts. -/
theorem length_findingsOf_eq (h : Renaming f es) (hcanonical : (es.map (·.canonical)).Nodup)
    {k : FindingKind} (hk : k ≠ .outputless) :
    (findingsOf (es.map f) k).length = (findingsOf es k).length := by
  -- Two kinds of findings come from references; they stand side by side.
  have hreferences : ∀ k : FindingKind,
      (((es.map f).flatMap (referenceFindings (es.map f))).filter
          fun c => c.cause.kind = k).length =
        ((es.flatMap (referenceFindings es)).filter fun c => c.cause.kind = k).length := by
    intro k
    have hfilter : ∀ l : List Finding,
        (l.filter fun c => c.cause.kind = k).length = (l.map (·.cause.kind)).count k := by
      intro l
      rw [List.count, List.countP_map, List.countP_eq_length_filter]
      rfl
    rw [hfilter, hfilter, h.map_kind_flatMap_referenceFindings]
  cases k with
  | outputless => exact absurd rfl hk
  | missing => exact hreferences .missing
  | ambiguous => exact hreferences .ambiguous
  | keysTwice =>
    have hkeys : keysTwice ∘ f = keysTwice := by
      funext e
      simp only [Function.comp_apply, keysTwice, assertions?, h.registration_eq]
    simp only [findingsOf, keyFindings, List.filter_map, List.length_map, hkeys]
  | component =>
    simp only [findingsOf, componentFindings, List.flatMap_map, List.length_flatMap,
      List.length_map, h.canonical_eq]
  | duplicate =>
    -- There are none before, and none after.
    have hcanonical' : ((es.map f).map (·.canonical)).Nodup := by
      simpa [List.map_map, Function.comp_def, h.canonical_eq] using hcanonical
    simp only [findingsOf, duplicateFindings_eq_nil_iff.2 ⟨h.nodup, hcanonical⟩,
      duplicateFindings_eq_nil_iff.2 ⟨h.nodup', hcanonical'⟩]
  | cycle =>
    simp only [findingsOf, cycleFindings, List.length_map]
    exact h.renames_dag.length_cycles_eq (dag_wellFormed es) (dag_wellFormed _)

end Renaming

end Entry

/-! ## §5 Sessions with other affixes -/

namespace CompiledGraph

/-- The action with canonical target `a` depends on the one with canonical target `b`. -/
def DependsOnCanonical (g : CompiledGraph) (a b : Target) : Prop :=
  ∃ h ∈ g.headers, h.canonicalTarget = a ∧
    ∃ h' ∈ g.headers, h'.canonicalTarget = b ∧ h'.target ∈ h.dependencyTargets

end CompiledGraph

namespace Session

/-- The session with other affixes. -/
def withAffixes (s : Session) (databaseSuffix schemaSuffix tablePrefix : Option String) : Session :=
  { s with config := s.config.withAffixes databaseSuffix schemaSuffix tablePrefix }

/-- The sessions have the same entries, apart from runtime targets, and the same dependencies
between them. -/
structure SameStructure (s s' : Session) : Prop where
  entries : s'.entries.map (fun e => (e.registration, e.canonical, e.parent)) =
    s.entries.map fun e => (e.registration, e.canonical, e.parent)
  resolution : ∀ e ∈ s.entries, ∀ r ∈ e.registration.dependencies,
    Entry.SameResolution s.entries s'.entries r
  dependsOn : ∀ a b, s'.compile.DependsOnCanonical a b ↔ s.compile.DependsOnCanonical a b
  canonicalTargets : (s'.compile.headers.map (·.canonicalTarget)).Perm
    (s.compile.headers.map (·.canonicalTarget))
  errors : ∀ k ≠ .outputless, (s'.compile.errors k).length = (s.compile.errors k).length

theorem dependsOnCanonical_compile_iff (s : Session) {a b : Target} :
    s.compile.DependsOnCanonical a b ↔
      ∃ e ∈ s.entries, e.canonical = a ∧ ∃ d ∈ s.entries, d.canonical = b ∧
        d.runtime ∈ Entry.dependencyTargets s.entries e := by
  simp only [CompiledGraph.DependsOnCanonical, mem_headers_compile, exists_exists_and_eq_and,
    Entry.finishedHeader_target, Entry.finishedHeader_canonicalTarget,
    Entry.finishedHeader_dependencyTargets]

/-- A generated assertion refers to its table by the table's canonical target. -/
theorem fits_of_forall_registrations {s : Session}
    (h : ∀ r ∈ s.registrations, ∀ d ∈ r.dependencies, ∃ e ∈ s.entries, d.Fits e.canonical) :
    ∀ e ∈ s.entries, ∀ r ∈ e.registration.dependencies, ∃ d ∈ s.entries, r.Fits d.canonical := by
  intro e he r hr
  rcases Entry.mem_ofRegistrations he with ⟨declared, hdeclared, rfl⟩ | hgenerated
  · exact h declared hdeclared r hr
  · obtain ⟨position, table, name, query, htable, -, rfl⟩ := hgenerated
    refine ⟨table, List.mem_of_getElem? (Entry.getElem?_ofRegistrations htable), ?_⟩
    cases List.mem_singleton.1 hr
    simp [TargetRef.Fits, TargetRef.ofTarget]

/-- Under any two choices of affixes that bring no two actions together: if every declared
dependency fits a canonical target, all dependencies are resolved in the same way, and the graphs
have the same canonical targets, the same dependencies between them and equally many errors. -/
theorem compile_withAffixes (s : Session)
    (databaseSuffix schemaSuffix tablePrefix : Option String)
    (hduplicate : s.compile.errors .duplicate = [])
    (hduplicate' :
      (s.withAffixes databaseSuffix schemaSuffix tablePrefix).compile.errors .duplicate = [])
    (hfits : ∀ r ∈ s.registrations, ∀ d ∈ r.dependencies, ∃ e ∈ s.entries, d.Fits e.canonical) :
    SameStructure s (s.withAffixes databaseSuffix schemaSuffix tablePrefix) := by
  generalize hs : s.withAffixes databaseSuffix schemaSuffix tablePrefix = s' at hduplicate' ⊢
  have hentries : s'.entries = s.entries.map (Entry.renamed s'.config) := by
    rw [← hs]
    exact Entry.ofRegistrations_withAffixes s.config _ _ _ s.registrations
  obtain ⟨hnodup, hcanonical⟩ := s.errors_duplicate_compile_eq_nil_iff.1 hduplicate
  obtain ⟨hnodup', -⟩ := s'.errors_duplicate_compile_eq_nil_iff.1 hduplicate'
  rw [hentries] at hnodup'
  have hrenaming : Entry.Renaming (Entry.renamed s'.config) s.entries :=
    { registration_eq := fun _ => rfl, canonical_eq := fun _ => rfl, parent_eq := fun _ => rfl
      nodup := hnodup, nodup' := hnodup', fits := fits_of_forall_registrations hfits }
  constructor
  · rw [hentries, List.map_map]
    rfl
  · intro e he r hr
    rw [hentries]
    exact hrenaming.resolve_dependency he hr
  · intro a b
    rw [dependsOnCanonical_compile_iff, dependsOnCanonical_compile_iff, hentries]
    simp only [List.mem_map, exists_exists_and_eq_and]
    refine exists_congr fun e => and_congr_right fun he => and_congr_right fun _ => ?_
    refine exists_congr fun d => and_congr_right fun hd => and_congr_right fun _ => ?_
    exact hrenaming.mem_dependencyTargets_iff he hd
  · refine s'.canonicalTargets_compile_perm.trans ?_
    refine List.Perm.trans (List.Perm.of_eq ?_) s.canonicalTargets_compile_perm.symm
    rw [hentries, List.map_map]
    rfl
  · intro k hk
    rw [errors_compile, errors_compile, List.length_map, List.length_map, hentries]
    exact hrenaming.length_findingsOf_eq hcanonical hk

/-- A checked table with the name of a declaration, and a report that refers to the table and, for
want of a schema, to both. -/
theorem compile_withAffixes_dev :
    let raw : Registration :=
      { filePath := "raw.sqlx", schema := some "raw", name := "orders", payload := .declaration }
    let orders : Registration :=
      { filePath := "orders.sqlx", name := "orders"
        dependencies := [{ schema := some "raw", name := "orders" }]
        payload := .table { query := "SELECT 1 AS id", assertions := { nonNull := ["id"] } } }
    let report : Registration :=
      { filePath := "report.sqlx", name := "report"
        dependencies := [{ schema := some "dataform", name := "orders" }, .named "orders"]
        payload := .table { query := "SELECT 1 AS id" } }
    let s : Session :=
      { config := {}, coreVersion := "3.0.0", registrations := [raw, orders, report] }
    let s' := s.withAffixes none (some "dev") (some "jane")
    s.compile.errors .duplicate = [] ∧ s'.compile.errors .duplicate = [] ∧
      (∀ r ∈ s.registrations, ∀ d ∈ r.dependencies, ∃ e ∈ s.entries, d.Fits e.canonical) ∧
      (Entry.candidates s'.entries (.named "orders")).map (·.1) = [0, 1] ∧ SameStructure s s' := by
  intro raw orders report s s'
  have hduplicate : s.compile.errors .duplicate = [] :=
    s.errors_duplicate_compile_eq_nil_iff.2 (by decide +kernel)
  have hduplicate' : s'.compile.errors .duplicate = [] :=
    s'.errors_duplicate_compile_eq_nil_iff.2 (by decide +kernel)
  have hfits : ∀ r ∈ s.registrations, ∀ d ∈ r.dependencies,
      ∃ e ∈ s.entries, d.Fits e.canonical := by
    decide +kernel
  exact ⟨hduplicate, hduplicate', hfits, by decide +kernel,
    compile_withAffixes s none (some "dev") (some "jane") hduplicate hduplicate' hfits⟩

end Session

end SqlWorkflow
