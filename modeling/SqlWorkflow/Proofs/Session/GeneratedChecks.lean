import SqlWorkflow.Proofs.Session.CheckQueries
import SqlWorkflow.Proofs.Session.ErrorKinds
import SqlWorkflow.Proofs.Session.Expansion
import SqlWorkflow.Proofs.Session.Headers

/-!
# What generated assertions depend on

An assertion that is generated for a table refers to the table by its canonical target.  A target
without a database makes a reference that fits every database, so the table is found if it has a
database or if nothing else has its schema and its name (`resolve_ofTarget`).  Otherwise the
reference is ambiguous, and the assertion depends on nothing (`dependencyTargets_namesakes`),
although its parent is known by position.

- **§1** Which targets the full reference to a target fits.
- **§2** What the full reference to the canonical target of an entry resolves to.
- **§3** Generated assertions.
-/

namespace SqlWorkflow

/-! ## §1 Full references -/

namespace Target

/-- The target has a database, or none of the targets has its schema and its name in one. -/
def Unmistakable (targets : List Target) (t : Target) : Prop :=
  t.database.isSome ∨
    ∀ t' ∈ targets, t'.schema = t.schema → t'.name = t.name → t'.database = none

instance (targets : List Target) (t : Target) : Decidable (t.Unmistakable targets) :=
  inferInstanceAs (Decidable (_ ∨ _))

theorem fits_ofTarget_self (t : Target) : (TargetRef.ofTarget t).Fits t := by
  refine ⟨rfl, ?_, ?_⟩
  · simp [TargetRef.ofTarget]
  · simp [TargetRef.ofTarget]

/-- The full reference to a target fits what has its schema, its name and, if it has one, its
database. -/
theorem fits_ofTarget_iff {t t' : Target} :
    (TargetRef.ofTarget t).Fits t' ↔
      t'.schema = t.schema ∧ t'.name = t.name ∧
        (t.database = none ∨ t'.database = t.database) := by
  constructor
  · rintro ⟨hname, hschema, hdatabase⟩
    refine ⟨(hschema _ rfl).symm, hname.symm, ?_⟩
    cases hsome : t.database with
    | none => exact .inl rfl
    | some database => exact .inr (hdatabase database hsome)
  · rintro ⟨hschema, hname, hdatabase⟩
    refine ⟨hname.symm, ?_, ?_⟩
    · rintro _ ⟨⟩
      exact hschema.symm
    · intro database hsome
      have hsome : t.database = some database := hsome
      simpa [hsome] using hdatabase

theorem Unmistakable.eq_of_fits {targets : List Target} {t t' : Target}
    (h : t.Unmistakable targets) (hmem : t' ∈ targets)
    (hfits : (TargetRef.ofTarget t).Fits t') : t' = t := by
  obtain ⟨hschema, hname, hdatabase⟩ := fits_ofTarget_iff.1 hfits
  have hsame : t'.database = t.database := by
    rcases hdatabase with hnone | hsame
    · rcases h with hsome | halone
      · simp [hnone] at hsome
      · rw [halone t' hmem hschema hname, hnone]
    · exact hsame
  cases t
  cases t'
  simp_all

/-- If a target is mistakable, the full reference to it fits one in some database as well. -/
theorem exists_fits_of_not_unmistakable {targets : List Target} {t : Target}
    (h : ¬ t.Unmistakable targets) :
    ∃ t' ∈ targets, (TargetRef.ofTarget t).Fits t' ∧ t' ≠ t := by
  unfold Unmistakable at h
  push Not at h
  obtain ⟨hnone, t', hmem, hschema, hname, hdatabase⟩ := h
  have hnone : t.database = none := by simpa using hnone
  refine ⟨t', hmem, fits_ofTarget_iff.2 ⟨hschema, hname, .inl hnone⟩, ?_⟩
  rintro rfl
  exact hdatabase hnone

end Target

namespace Entry

/-! ## §2 Resolution -/

variable {es : List Entry} {e d : Entry} {i j : Nat}

/-- If a reference fits a canonical target, it fits that of every candidate. -/
theorem fits_of_mem_candidates {r : TargetRef} (he : e ∈ es) (hfits : r.Fits e.canonical)
    (hd : (j, d) ∈ candidates es r) : r.Fits d.canonical := by
  have hfitting : d ∈ fitting es r := by
    rw [← map_snd_candidates]
    exact List.mem_map_of_mem hd
  rcases (mem_fitting_iff.1 hfitting).2 with h | ⟨hnone, -⟩
  · exact h
  · exact absurd hfits (hnone e he)

/-- One candidate is what a reference resolves to. -/
theorem resolve_of_candidates {r : TargetRef} (h : candidates es r = [(i, e)]) :
    resolve es r = .found i := by
  simp [resolve, h, distinct]

/-- Two candidates with different runtime targets make a reference ambiguous. -/
theorem resolve_of_two_candidates (hnodup : (es.map (·.runtime)).Nodup) {r : TargetRef}
    (he : (i, e) ∈ candidates es r) (hd : (j, d) ∈ candidates es r) (hne : e ≠ d) :
    ∃ positions, resolve es r = .ambiguous positions := by
  cases hr : resolve es r with
  | ambiguous positions => exact ⟨positions, rfl⟩
  | found k =>
    obtain ⟨c, hc⟩ := candidates_of_resolve_eq_found hnodup hr
    rw [hc, List.mem_singleton] at he hd
    cases he
    cases hd
    exact absurd rfl hne
  | missing =>
    -- Candidates with different targets are all kept, so that some are left.
    unfold resolve at hr
    rw [distinct_eq_self (candidates_runtime_nodup hnodup r)] at hr
    split at hr
    · next hnil =>
      rw [hnil] at he
      cases he
    · cases hr
    · cases hr

/-- The full reference to an unmistakable canonical target resolves to the entry that has it. -/
theorem resolve_ofTarget (hruntime : (es.map (·.runtime)).Nodup)
    (hcanonical : (es.map (·.canonical)).Nodup) (he : es[i]? = some e)
    (h : e.canonical.Unmistakable (es.map (·.canonical))) :
    resolve es (TargetRef.ofTarget e.canonical) = .found i := by
  have hfits := e.canonical.fits_ofTarget_self
  have hmem := mem_candidates_of_fits he hfits
  have hentry := List.mem_of_getElem? he
  have honly : ∀ c ∈ candidates es (TargetRef.ofTarget e.canonical), c = (i, e) := by
    rintro ⟨j, d⟩ hd
    have hget := getElem?_of_mem_candidates hd
    have hcanonical_eq : d.canonical = e.canonical :=
      h.eq_of_fits (List.mem_map_of_mem (List.mem_of_getElem? hget))
        (fits_of_mem_candidates hentry hfits hd)
    have heq : d = e :=
      List.inj_on_of_nodup_map hcanonical (List.mem_of_getElem? hget) hentry hcanonical_eq
    rw [position_unique hruntime hget he (congrArg (·.runtime) heq), heq]
  -- A list without repetitions whose members are all the same has one member.
  have hnodup := (candidates_runtime_nodup hruntime (TargetRef.ofTarget e.canonical)).of_map
  apply resolve_of_candidates
  rw [List.eq_replicate_iff.2 ⟨rfl, honly⟩] at hmem hnodup ⊢
  have hle := List.nodup_replicate.1 hnodup
  have hpos := (List.mem_replicate.1 hmem).1
  rw [show (candidates es (TargetRef.ofTarget e.canonical)).length = 1 by omega]
  rfl

/-- The full reference to a mistakable canonical target is ambiguous. -/
theorem resolve_ofTarget_of_not_unmistakable (hruntime : (es.map (·.runtime)).Nodup)
    (he : es[i]? = some e) (h : ¬ e.canonical.Unmistakable (es.map (·.canonical))) :
    ∃ positions, resolve es (TargetRef.ofTarget e.canonical) = .ambiguous positions := by
  obtain ⟨t, ht, hfits, hne⟩ := Target.exists_fits_of_not_unmistakable h
  obtain ⟨d, hd, rfl⟩ := List.mem_map.1 ht
  obtain ⟨j, hj⟩ := List.mem_iff_getElem?.1 hd
  apply resolve_of_two_candidates hruntime
    (mem_candidates_of_fits he e.canonical.fits_ofTarget_self) (mem_candidates_of_fits hj hfits)
  rintro rfl
  exact hne rfl

/-! ## §3 Generated assertions -/

/-- An entry with a parent has been generated for the entry at that position, and refers to it. -/
theorem exists_parent {config : ProjectConfig} {rs : List Registration} {p : Nat}
    (he : e ∈ ofRegistrations config rs) (hparent : e.parent = some p) :
    ∃ table, (ofRegistrations config rs)[p]? = some table ∧
      e.registration.dependencies = [TargetRef.ofTarget table.canonical] ∧
      (WholeChecks table.checkedAssertions → ∀ query ∈ e.ownTexts,
        TargetRef.ofTarget table.canonical ∈ Deferred.targets query) := by
  rcases mem_ofRegistrations he with ⟨r, -, rfl⟩ | hgenerated
  · cases hparent
  · obtain ⟨position, table, name, query, htable, hcheck, rfl⟩ := hgenerated
    cases hparent
    refine ⟨table, getElem?_ofRegistrations htable, rfl, ?_⟩
    intro hwhole t ht
    cases List.mem_singleton.1 ht
    exact Deferred.mem_targets_iff.2 (holds_of_mem_checks hwhole hcheck).marker_mem_pieces

theorem dependencyTargets_of_found {r : TargetRef}
    (hdependencies : e.registration.dependencies = [r]) (hr : resolve es r = .found i)
    (hd : es[i]? = some d) : dependencyTargets es e = [d.runtime] := by
  simp [dependencyTargets, hdependencies, hr, hd, withoutRepeats]

theorem dependencyTargets_of_ambiguous {r : TargetRef} {positions : List Nat}
    (hdependencies : e.registration.dependencies = [r])
    (hr : resolve es r = .ambiguous positions) : dependencyTargets es e = [] := by
  simp [dependencyTargets, hdependencies, hr, withoutRepeats]

theorem ambiguous_mem_findingsOf {r : TargetRef} {positions : List Nat} (he : e ∈ es)
    (hmem : r ∈ e.registration.dependencies) (hr : resolve es r = .ambiguous positions) :
    e.finding (.ambiguous r (canonicalTargets es positions)) ∈ findingsOf es .ambiguous := by
  apply List.mem_filter.2 ⟨List.mem_flatMap.2 ⟨e, he, ?_⟩, ?_⟩
  · apply List.mem_filterMap.2 ⟨r, hmem, ?_⟩
    rw [hr]
  · simp [finding, FindingCause.kind]

end Entry

namespace Session

variable {s : Session}

/-- If no name is reported twice and the table that a generated entry checks is unmistakable, the
entry depends on that table alone, and its query refers to the table if the markers in what is
checked survive. -/
theorem belongs_of_unmistakable (hduplicate : s.compile.errors .duplicate = []) {e : Entry}
    (he : e ∈ s.entries) {p : Nat} (hp : e.parent = some p) {table : Entry}
    (htable : s.entries[p]? = some table)
    (h : table.canonical.Unmistakable (s.entries.map (·.canonical))) :
    Entry.dependencyTargets s.entries e = [table.runtime] ∧
      (Entry.WholeChecks table.checkedAssertions → ∀ query ∈ e.ownTexts,
        ∃ r ∈ Deferred.targets query, Entry.resolve s.entries r = .found p) := by
  obtain ⟨hruntime, hcanonical⟩ := s.errors_duplicate_compile_eq_nil_iff.1 hduplicate
  obtain ⟨table', htable', hdependencies, hquery⟩ := Entry.exists_parent he hp
  obtain rfl : table' = table := Option.some.inj (htable'.symm.trans htable)
  have hr := Entry.resolve_ofTarget hruntime hcanonical htable h
  constructor
  · exact Entry.dependencyTargets_of_found hdependencies hr htable
  · intro hwhole query hmem
    exact ⟨_, hquery hwhole query hmem, hr⟩

/-- If no name is reported twice, a generated assertion depends on its parent alone, provided that
the parent's canonical target is unmistakable.  Otherwise it depends on nothing, and that is
reported. -/
theorem dependencyTargets_of_parentAction (hduplicate : s.compile.errors .duplicate = [])
    {a : Assertion} (ha : a ∈ s.compile.assertions) {parent : Target}
    (hparent : a.parentAction = some parent) :
    ∃ h ∈ s.compile.headers, h.target = parent ∧
      (h.canonicalTarget.Unmistakable (s.compile.headers.map (·.canonicalTarget)) →
        a.header.dependencyTargets = [parent]) ∧
      (¬ h.canonicalTarget.Unmistakable (s.compile.headers.map (·.canonicalTarget)) →
        a.header.dependencyTargets = [] ∧
          ∃ error ∈ s.compile.errors .ambiguous,
            error.actionTarget = some a.header.canonicalTarget) := by
  obtain ⟨hruntime, -⟩ := s.errors_duplicate_compile_eq_nil_iff.1 hduplicate
  obtain ⟨e, he, hheader, p, hp, htarget⟩ := exists_entry_of_parentAction ha hparent
  obtain ⟨table, htable, hdependencies, -⟩ := Entry.exists_parent he hp
  have htable : s.entries[p]? = some table := htable
  have hruntime_eq : table.runtime = parent := by simpa [htable] using htarget
  have hsame : ∀ t : Target, t.Unmistakable (s.compile.headers.map (·.canonicalTarget)) ↔
      t.Unmistakable (s.entries.map (·.canonical)) := by
    intro t
    simp only [Target.Unmistakable, s.canonicalTargets_compile_perm.mem_iff]
  refine ⟨_, s.mem_headers_compile.2 ⟨table, List.mem_of_getElem? htable, rfl⟩, ?_, ?_, ?_⟩
  · rw [Entry.finishedHeader_target, hruntime_eq]
  · rw [Entry.finishedHeader_canonicalTarget, hsame, hheader,
      Entry.finishedHeader_dependencyTargets, ← hruntime_eq]
    intro h
    exact (belongs_of_unmistakable hduplicate he hp htable h).1
  · rw [Entry.finishedHeader_canonicalTarget, hsame, hheader,
      Entry.finishedHeader_dependencyTargets, Entry.finishedHeader_canonicalTarget]
    intro h
    obtain ⟨positions, hr⟩ :=
      Entry.resolve_ofTarget_of_not_unmistakable hruntime htable h
    refine ⟨Entry.dependencyTargets_of_ambiguous hdependencies hr, ?_⟩
    rw [errors_compile]
    exact ⟨_, List.mem_map_of_mem (Entry.ambiguous_mem_findingsOf he
      (by simp [hdependencies]) hr), rfl⟩

/-- A checked table without a database and one with its schema and its name in a database: no two
entries share a target, but the assertion that is generated for the first does not depend on it. -/
theorem dependencyTargets_namesakes :
    let orders : Registration :=
      { filePath := "orders.sqlx", name := "orders"
        payload := .table { query := "SELECT 1 AS id", assertions := { nonNull := ["id"] } } }
    let archive : Registration :=
      { filePath := "archive.sqlx", database := some "archive", name := "orders"
        payload := .table { query := "SELECT 1 AS id" } }
    let s : Session :=
      { config := {}, coreVersion := "3.0.0", registrations := [orders, archive] }
    s.compile.errors .duplicate = [] ∧
      ∃ check, s.entries[2]? = some check ∧ check.parent = some 0 ∧
        Entry.dependencyTargets s.entries check = [] := by
  intro orders archive s
  have hruntime : (s.entries.map (·.runtime)).Nodup := by decide +kernel
  have hcanonical : (s.entries.map (·.canonical)).Nodup := by decide +kernel
  refine ⟨s.errors_duplicate_compile_eq_nil_iff.2 ⟨hruntime, hcanonical⟩, _, rfl, rfl, ?_⟩
  obtain ⟨positions, hr⟩ := Entry.resolve_ofTarget_of_not_unmistakable (i := 0) hruntime rfl
    (by decide +kernel)
  exact Entry.dependencyTargets_of_ambiguous rfl hr

end Session

end SqlWorkflow
