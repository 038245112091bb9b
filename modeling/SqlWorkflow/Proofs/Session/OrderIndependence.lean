import SqlWorkflow.Proofs.Session.Arrangement
import SqlWorkflow.Proofs.Session.Headers

/-!
# The order of registration does not matter

Sessions with the same registrations in different orders compile to the same actions, the same
tests and the same errors, the order of the validation errors apart, if all targets are different
(`Session.compile_perm`).

- **§1** Actions: what an entry is finished to depends on its view alone.
- **§2** Findings are the same up to order.
- **§3** Unit tests.
- **§4** Registrations in another order give entries in another order.
- **§5** The main statement.
-/

namespace SqlWorkflow

namespace Entry

variable {es es' : List Entry} {e e' : Entry} {i i' : Nat}

/-! ## §1 Actions -/

/-- The runtime target that a reference resolves to. -/
def resolvedTarget (entries : List Entry) (r : TargetRef) : Option Target :=
  match resolve entries r with
  | .found i => entries[i]?.map (·.runtime)
  | _ => none

theorem Rearranged.resolvedTarget_eq (h : Rearranged es es') (r : TargetRef) :
    resolvedTarget es r = resolvedTarget es' r := by
  -- Positions differ between the lists; only the kind of resolution and the entry behind it do not.
  have hmatch := h.resolve_matches r
  unfold resolvedTarget
  generalize resolve es r = a at hmatch ⊢
  generalize resolve es' r = a' at hmatch ⊢
  cases hmatch with
  | found hplaced => exact hplaced.targetAt_eq
  | missing => rfl
  | ambiguous _ => rfl

theorem Rearranged.dependencyTargets_eq (h : Rearranged es es') (hview : view es e = view es' e') :
    dependencyTargets es e = dependencyTargets es' e' := by
  have hfound : e.registration.dependencies.filterMap (resolvedTarget es) =
      e'.registration.dependencies.filterMap (resolvedTarget es') := by
    rw [registration_eq_of_view_eq hview, funext h.resolvedTarget_eq]
  exact congrArg (fun found => (withoutRepeats found).mergeSort Target.le) hfound

theorem Rearranged.header_eq (h : Rearranged es es') (hview : view es e = view es' e') :
    header es e = header es' e' := by
  unfold header
  rw [registration_eq_of_view_eq hview, canonical_eq_of_view_eq hview, runtime_eq_of_view_eq hview,
    h.dependencyTargets_eq hview]

/-- The finished action of an entry does not depend on where the entry stands. -/
theorem Rearranged.finish_eq (h : Rearranged es es') (config : ProjectConfig)
    (he : es[i]? = some e) (he' : es'[i']? = some e') (hview : view es e = view es' e') :
    e.finish config es i = e'.finish config es' i' := by
  -- Texts, header and parent are all that an action is made of, and each depends on the view alone.
  have hexpansion : Expansion.Rearranged ⟨config, es, i⟩ ⟨config, es', i'⟩ :=
    ⟨rfl, h, e, e', he, he', hview⟩
  have hfill : Expansion.text ⟨config, es, i⟩ e = Expansion.text ⟨config, es', i'⟩ e' :=
    funext (hexpansion.text_eq hview)
  have hparent : (e.parent.bind fun p => es[p]?.map (·.runtime)) =
      e'.parent.bind fun p => es'[p]?.map (·.runtime) :=
    parent_eq_of_view_eq hview
  unfold finish
  rw [registration_eq_of_view_eq hview, h.header_eq hview]
  simp only [hfill, hparent]

/-- The finished actions are the same up to order. -/
theorem Rearranged.actions_perm (h : Rearranged es es') (config : ProjectConfig) :
    (Session.actions config es).Perm (Session.actions config es') := by
  have hkeys : (es.zipIdx.map fun p => view es p.1).Perm
      (es'.zipIdx.map fun p => view es' p.1) := by
    rw [map_fst_zipIdx, map_fst_zipIdx]
    exact h.perm
  -- The position of an entry is needed too, since an inline table is not expanded in itself.
  refine perm_map_of_key hkeys fun ⟨e, i⟩ hmem ⟨e', i'⟩ hmem' hview => ?_
  exact h.finish_eq config (List.mem_zipIdx_iff_getElem?.1 hmem)
    (List.mem_zipIdx_iff_getElem?.1 hmem') hview

/-! ## §2 Findings -/

theorem finding_eq_of_view_eq (hview : view es e = view es' e') (cause : FindingCause) :
    e.finding cause = e'.finding cause := by
  unfold finding
  rw [registration_eq_of_view_eq hview, canonical_eq_of_view_eq hview]

theorem keysTwice_eq_of_view_eq (hview : view es e = view es' e') : e.keysTwice = e'.keysTwice := by
  unfold keysTwice assertions?
  rw [registration_eq_of_view_eq hview]

theorem Rearranged.keyFindings_perm (h : Rearranged es es') :
    (keyFindings es).Perm (keyFindings es') :=
  perm_filter_map_of_key h.perm (fun _ _ _ _ => keysTwice_eq_of_view_eq)
    fun _ _ _ _ hview => finding_eq_of_view_eq hview .keysTwice

theorem Rearranged.componentFindings_perm (h : Rearranged es es') :
    (componentFindings es).Perm (componentFindings es') := by
  refine perm_flatMap_of_key h.perm fun e _ e' _ hview => ?_
  rw [canonical_eq_of_view_eq hview]
  exact List.map_congr_left fun c _ => finding_eq_of_view_eq hview (.component c)

theorem canonicalTargets_eq {l l' : List Nat} (hl : List.Forall₂ (Placed es es') l l') :
    canonicalTargets es l = canonicalTargets es' l' := by
  unfold canonicalTargets
  induction hl with
  | nil => rfl
  | cons hplaced _ ih =>
    obtain ⟨e, e', he, he', hview⟩ := hplaced
    simp only [List.filterMap_cons, he, he', Option.map_some, ih, canonical_eq_of_view_eq hview]

theorem Rearranged.referenceFindings_eq (h : Rearranged es es') (hview : view es e = view es' e') :
    referenceFindings es e = referenceFindings es' e' := by
  unfold referenceFindings
  rw [registration_eq_of_view_eq hview]
  congr 1
  funext r
  have hmatch := h.resolve_matches r
  generalize resolve es r = a at hmatch ⊢
  generalize resolve es' r = a' at hmatch ⊢
  cases hmatch with
  | found _ => rfl
  | missing =>
    simp only [canonical_eq_of_view_eq hview, finding_eq_of_view_eq hview]
  | ambiguous hl =>
    simp only [canonicalTargets_eq hl, finding_eq_of_view_eq hview]

theorem Rearranged.isOutputless_eq (h : Rearranged es es') (r : TargetRef) :
    isOutputless es r = isOutputless es' r := by
  have hmatch := h.resolve_matches r
  unfold isOutputless
  generalize resolve es r = a at hmatch ⊢
  generalize resolve es' r = a' at hmatch ⊢
  cases hmatch with
  | found hplaced =>
    obtain ⟨e, e', he, he', hview⟩ := hplaced
    simp only [he, he', Option.any_some, registration_eq_of_view_eq hview]
  | missing => rfl
  | ambiguous _ => rfl

theorem Rearranged.outputFindings_perm (h : Rearranged es es') :
    (outputFindings es).Perm (outputFindings es') := by
  refine perm_filter_map_of_key h.perm (fun e _ e' _ hview => ?_)
    fun _ _ _ _ hview => finding_eq_of_view_eq hview .outputless
  unfold usesOutputless ownTexts
  rw [registration_eq_of_view_eq hview, funext h.isOutputless_eq]

/-- The dependencies of both lists form one graph. -/
theorem Rearranged.sameGraph_dag (h : Rearranged es es') :
    Dag.SameGraph (dag es) (dag es') := by
  -- Whatever is said of some entry's target and dependencies carries over, in both directions.
  have transfer : ∀ {es es' : List Entry}, Rearranged es es' → ∀ {p : Target → List Target → Prop},
      (∃ e ∈ es, p e.runtime (dependencyTargets es e)) →
        ∃ e ∈ es', p e.runtime (dependencyTargets es' e) := by
    rintro es es' h p ⟨e, he, hp⟩
    obtain ⟨e', he', hview⟩ := h.exists_view_eq he
    rw [runtime_eq_of_view_eq hview, h.dependencyTargets_eq hview] at hp
    exact ⟨e', he', hp⟩
  have hwf := dag_wellFormed es
  have hwf' := dag_wellFormed es'
  constructor
  · refine (List.perm_ext_iff_of_nodup hwf.nodes_nodup hwf'.nodes_nodup).2 fun t => ?_
    rw [mem_nodes_dag_iff, mem_nodes_dag_iff]
    exact ⟨transfer h (p := fun s ts => t = s ∨ t ∈ ts),
      transfer h.symm (p := fun s ts => t = s ∨ t ∈ ts)⟩
  · refine (List.perm_ext_iff_of_nodup hwf.edges_nodup hwf'.edges_nodup).2 fun ⟨a, b⟩ => ?_
    change (dag es).Edge a b ↔ (dag es').Edge a b
    rw [edge_dag_iff, edge_dag_iff]
    exact ⟨transfer h (p := fun s ts => a ∈ ts ∧ b = s),
      transfer h.symm (p := fun s ts => a ∈ ts ∧ b = s)⟩

/-- What is found is the same in both lists, if there is only one thing to find. -/
theorem find?_eq_of_perm {α : Type} {p : α → Bool} {l l' : List α} (h : l.Perm l')
    (hunique : ∀ a ∈ l, ∀ b ∈ l, p a = true → p b = true → a = b) : l.find? p = l'.find? p := by
  cases hl : l.find? p with
  | none =>
    -- Nothing to find in one arrangement, nothing in the other.
    rw [List.find?_eq_none] at hl
    exact (List.find?_eq_none.2 fun a ha => hl a (h.mem_iff.2 ha)).symm
  | some a =>
    have hfound : (l'.find? p).isSome :=
      List.find?_isSome.2 ⟨a, h.mem_iff.1 (List.mem_of_find?_eq_some hl), List.find?_some hl⟩
    obtain ⟨b, hb⟩ := Option.isSome_iff_exists.1 hfound
    rw [hb, hunique a (List.mem_of_find?_eq_some hl) b
      (h.mem_iff.2 (List.mem_of_find?_eq_some hb)) (List.find?_some hl) (List.find?_some hb)]

/-- The file of the entry with a given runtime target. -/
theorem Rearranged.find?_file_eq (h : Rearranged es es') (t : Option Target) :
    (es.find? fun e => some e.runtime = t).map (·.registration.filePath) =
      (es'.find? fun e => some e.runtime = t).map (·.registration.filePath) := by
  -- A view knows both the runtime target and the file, so the search can be made among views.
  have hviews : ∀ es : List Entry,
      (es.find? fun e => some e.runtime = t).map (·.registration.filePath) =
        ((es.map (view es)).find? fun v => some v.runtime = t).map (·.registration.filePath) := by
    intro es
    rw [List.find?_map, Option.map_map]
    rfl
  rw [hviews es, hviews es', find?_eq_of_perm h.perm]
  intro v hv w hw hvt hwt
  obtain ⟨e, he, rfl⟩ := List.mem_map.1 hv
  obtain ⟨d, hd, rfl⟩ := List.mem_map.1 hw
  have heq : some e.runtime = some d.runtime :=
    (of_decide_eq_true hvt).trans (of_decide_eq_true hwt).symm
  rw [List.inj_on_of_nodup_map h.nodup he hd (Option.some.inj heq)]

theorem Rearranged.cycleFindings_eq (h : Rearranged es es') :
    cycleFindings es = cycleFindings es' := by
  unfold cycleFindings
  rw [h.sameGraph_dag.cycles_congr (dag_wellFormed es) (dag_wellFormed es')]
  exact List.map_congr_left fun cycle _ => by rw [h.find?_file_eq]

/-- If canonical targets are different too, the findings are the same up to order. -/
theorem Rearranged.findings_perm (h : Rearranged es es')
    (hcanonical : (es.map (·.canonical)).Nodup) (hcanonical' : (es'.map (·.canonical)).Nodup) :
    (Session.findings es).Perm (Session.findings es') := by
  -- Collisions are listed by position: the one kind of finding that needs there to be none.
  have hduplicates : duplicateFindings es = duplicateFindings es' := by
    rw [duplicateFindings_eq_nil_iff.2 ⟨h.nodup, hcanonical⟩,
      duplicateFindings_eq_nil_iff.2 ⟨h.nodup', hcanonical'⟩]
  have hreferences : (es.flatMap (referenceFindings es)).Perm
      (es'.flatMap (referenceFindings es')) :=
    perm_flatMap_of_key h.perm fun _ _ _ _ hview => h.referenceFindings_eq hview
  unfold Session.findings
  rw [hduplicates, h.cycleFindings_eq]
  exact ((((h.keyFindings_perm.append h.componentFindings_perm).append_right _).append
    hreferences).append_right _).append h.outputFindings_perm

end Entry

/-! ## §3 Unit tests -/

namespace UnitTest

open Entry (Rearranged)

variable {es es' : List Entry}

theorem datasetEntry_eq (h : Rearranged es es') (r : TargetRef) :
    (datasetEntry es r).1.bind tableBody? = (datasetEntry es' r).1.bind tableBody? ∧
      (datasetEntry es r).2 = (datasetEntry es' r).2 := by
  -- What a test reads of its dataset is in the registration.
  have hbody : ∀ {i i'}, Entry.Placed es es' i i' →
      es[i]?.bind tableBody? = es'[i']?.bind tableBody? := by
    rintro i i' ⟨e, e', he, he', hview⟩
    rw [he, he', Option.bind_some, Option.bind_some, tableBody?, tableBody?,
      Entry.registration_eq_of_view_eq hview]
  have hmatch := h.resolve_matches r
  unfold datasetEntry
  generalize Entry.resolve es r = a at hmatch ⊢
  generalize Entry.resolve es' r = a' at hmatch ⊢
  cases hmatch with
  | found hplaced => exact ⟨hbody hplaced, rfl⟩
  | missing => exact ⟨rfl, rfl⟩
  | ambiguous hl =>
    refine ⟨?_, by simp only [Entry.canonicalTargets_eq hl]⟩
    -- The first of several candidates counts.
    cases hl with
    | nil => rfl
    | cons hplaced _ => exact hbody hplaced

theorem query_eq (h : Rearranged es es') (test : UnitTest) : test.query es = test.query es' := by
  unfold query
  split
  · rfl
  · next r _ =>
    obtain ⟨hbody, hproblems⟩ := datasetEntry_eq h r
    simp only [hbody, hproblems]

/-- Unit tests do not see the order of the entries. -/
theorem finishAll_eq (h : Rearranged es es') (seen : List String) (tests : List UnitTest) :
    finishAll es seen tests = finishAll es' seen tests := by
  induction tests generalizing seen with
  | nil => rfl
  | cons test rest ih => simp only [finishAll, finish, ih, query_eq h]

end UnitTest

/-! ## §4 Registrations in another order -/

namespace Entry

/-- The checks of an entry, apart from positions. -/
def checkViews (config : ProjectConfig) (e : Entry) : List View :=
  (checkEntries config e 0).map fun c => ⟨c.registration, c.canonical, c.runtime, some e.runtime⟩

theorem map_view_checkEntries {config : ProjectConfig} {es : List Entry} {e : Entry} {i : Nat}
    (h : es[i]? = some e) : (checkEntries config e i).map (view es) = checkViews config e := by
  rw [checkViews, checkEntries_eq, checkEntries_eq, List.map_map, List.map_map]
  refine List.map_congr_left fun check _ => ?_
  simp [view, targetAt, ofRegistration, h]

/-- The entries of registrations, apart from positions, are those of the single registrations. -/
theorem map_view_ofRegistrations (config : ProjectConfig) (rs : List Registration) :
    (ofRegistrations config rs).map (view (ofRegistrations config rs)) =
      (declared config rs).map (view []) ++ (declared config rs).flatMap (checkViews config) := by
  have hdeclared : ∀ es,
      (declared config rs).map (view es) = (declared config rs).map (view []) := by
    intro es
    refine List.map_congr_left fun e he => ?_
    obtain ⟨r, -, rfl⟩ := List.mem_map.1 he
    rfl
  -- A check finds its table at the table's position, since generated entries come after all others.
  have hchecks : ∀ p ∈ (declared config rs).zipIdx,
      (checkEntries config p.1 p.2).map (view (ofRegistrations config rs)) =
        checkViews config p.1 := by
    intro p hp
    exact map_view_checkEntries (getElem?_ofRegistrations (List.mem_zipIdx_iff_getElem?.1 hp))
  rw [← hdeclared (ofRegistrations config rs)]
  conv_lhs => arg 2; rw [ofRegistrations_eq]
  rw [List.map_append, List.map_flatMap]
  congr 1
  calc (declared config rs).zipIdx.flatMap _
      = (declared config rs).zipIdx.flatMap fun p => checkViews config p.1 :=
        List.flatMap_congr hchecks
    _ = ((declared config rs).zipIdx.map (·.1)).flatMap (checkViews config) :=
        (List.flatMap_map _ _ _).symm
    _ = (declared config rs).flatMap (checkViews config) := by
        rw [show (declared config rs).zipIdx.map (·.1) = declared config rs from
          List.zipIdx_map_fst 0 _]

/-- Registrations in another order give entries in another order, nothing else. -/
theorem rearranged_ofRegistrations {config : ProjectConfig} {rs rs' : List Registration}
    (h : rs.Perm rs') (hnodup : ((ofRegistrations config rs).map (·.runtime)).Nodup) :
    Rearranged (ofRegistrations config rs) (ofRegistrations config rs') := by
  have hperm : ((ofRegistrations config rs).map (view (ofRegistrations config rs))).Perm
      ((ofRegistrations config rs').map (view (ofRegistrations config rs'))) := by
    rw [map_view_ofRegistrations, map_view_ofRegistrations]
    have hdeclared : (declared config rs).Perm (declared config rs') := h.map _
    exact (hdeclared.map _).append (hdeclared.flatMap_right _)
  refine ⟨hperm, hnodup, ?_⟩
  have hruntime := hperm.map View.runtime
  rw [List.map_map, List.map_map] at hruntime
  exact hruntime.nodup_iff.1 hnodup

theorem Rearranged.canonical_nodup {es es' : List Entry} (h : Rearranged es es')
    (hnodup : (es.map (·.canonical)).Nodup) : (es'.map (·.canonical)).Nodup := by
  have hcanonical := h.perm.map View.canonical
  rw [List.map_map, List.map_map] at hcanonical
  exact hcanonical.nodup_iff.1 hnodup

end Entry

/-! ## §5 Sessions -/

namespace Session

/-- If the entries of a session, generated assertions included, have different runtime targets and
different canonical targets, registering them in another order gives the same graph, except for
the order of the validation errors. -/
theorem compile_perm (s : Session) {rs' : List Registration} (h : s.registrations.Perm rs')
    (hruntime : (s.entries.map (·.runtime)).Nodup)
    (hcanonical : (s.entries.map (·.canonical)).Nodup) :
    let g := s.compile
    let g' := { s with registrations := rs' }.compile
    g.tables = g'.tables ∧ g.operations = g'.operations ∧ g.assertions = g'.assertions ∧
      g.declarations = g'.declarations ∧ g.notebooks = g'.notebooks ∧ g.tests = g'.tests ∧
      g.graphErrors.compilationErrors = g'.graphErrors.compilationErrors ∧
      g.graphErrors.validationErrors.Perm g'.graphErrors.validationErrors := by
  intro g g'
  have hentries : Entry.Rearranged s.entries { s with registrations := rs' }.entries :=
    Entry.rearranged_ofRegistrations h hruntime
  have hactions := hentries.actions_perm s.config
  -- Sorting by target leaves no choice, because no two actions share one.
  have htargets : ((actions s.config s.entries).map (·.header.target)).Nodup := by
    rw [map_target_actions]
    exact hruntime
  have htests := UnitTest.finishAll_eq hentries [] s.tests
  have hfindings := hentries.findings_perm hcanonical (hentries.canonical_nodup hcanonical)
  refine ⟨?_, ?_, ?_, ?_, ?_, ?_, ?_, hfindings.map _⟩
  · exact arranged_congr Action.header_of_table? hactions htargets
  · exact arranged_congr Action.header_of_operation? hactions htargets
  · exact arranged_congr Action.header_of_assertion? hactions htargets
  · exact arranged_congr Action.header_of_declaration? hactions htargets
  · exact arranged_congr Action.header_of_notebook? hactions htargets
  · exact congrArg (fun tests => tests.1.mergeSort CompiledTest.le) htests
  · exact congrArg (fun tests => s.compilationErrors ++ tests.2) htests

/-- An inline table that a checked table refers to, a reference that fits nothing, and a
declaration, registered from last to first. -/
theorem compile_perm_reversed :
    let rows : Registration :=
      { filePath := "rows.sqlx", name := "rows"
        payload := .table { type := .inline, query := "SELECT 1 AS id" } }
    let orders : Registration :=
      { filePath := "orders.sqlx", name := "orders", dependencies := [.named "rows"]
        payload := .table
          { query := "SELECT * FROM " ++ (Deferred.target (.named "rows")).encode
            assertions := { nonNull := ["id"] } } }
    let people : Registration :=
      { filePath := "people.sqlx", name := "people", dependencies := [.named "staff"]
        payload := .declaration }
    let s : Session :=
      { config := {}, coreVersion := "3.0.0", registrations := [rows, orders, people] }
    (s.entries.map (·.runtime)).Nodup ∧ (s.entries.map (·.canonical)).Nodup ∧
      s.entries.length = 4 ∧
      s.compile.tables = { s with registrations := [people, orders, rows] }.compile.tables := by
  intro rows orders people s
  have hruntime : (s.entries.map (·.runtime)).Nodup := by decide +kernel
  have hcanonical : (s.entries.map (·.canonical)).Nodup := by decide +kernel
  have hperm : s.registrations.Perm [people, orders, rows] := (List.reverse_perm _).symm
  exact ⟨hruntime, hcanonical, by decide +kernel, (compile_perm s hperm hruntime hcanonical).1⟩

end Session

end SqlWorkflow
