import SqlWorkflow.Proofs.Graph.ExactCycles
import SqlWorkflow.Proofs.Session.Inlining

/-!
# Circles of inline tables

An inline table is named in a text, instead of being expanded, if it is the action that is written
or is being expanded already.  Then references in texts lead in a circle.  What is reported as a
circle are declared dependencies, so it is reported if the references in texts are declared
(`circular_of_names`), and need not be if they are not (`not_reported_selfNaming`).

- **§1** The texts that an expansion comes to, and the inline tables that it names (`Names`).
- **§2** A table that is named leads to itself (`transGen_of_names`).
- **§3** Declared references are edges of the graph of dependencies, whose cycles are reported.
-/

namespace SqlWorkflow

open Relation

/-! ## §1 Named tables -/

namespace Expansion

/-- Filling in the texts of an action comes to a text, with these tables on the stack. -/
inductive Visits (x : Expansion) : List Nat → String → Prop
  | own {e : Entry} {s : String} (he : x.entries[x.root]? = some e) (hs : s ∈ e.ownTexts) :
      Visits x [] s
  | query {stack : List Nat} {s : String} {r : TargetRef} {j : Nat} {e : Entry} {query : String}
      (h : Visits x stack s) (hr : r ∈ Deferred.targets s)
      (hj : Entry.resolve x.entries r = .found j) (hinline : x.inline? stack j = some (e, query)) :
      Visits x (j :: stack) query

/-- Filling in the texts of an action puts the name of an inline table in the place of a reference
to it. -/
def Names (x : Expansion) (j : Nat) : Prop :=
  ∃ stack s r e, x.Visits stack s ∧ r ∈ Deferred.targets s ∧
    Entry.resolve x.entries r = .found j ∧ x.entries[j]? = some e ∧ e.inlineQuery?.isSome ∧
    x.standIn stack r (.found j) = e.runtime.quoted

variable {x : Expansion} {stack : List Nat} {j : Nat} {s : String}

/-- A query between parentheses is no name. -/
theorem parenthesized_ne_quoted (query : String) (t : Target) : "(" ++ query ++ ")" ≠ t.quoted := by
  intro h
  have hfirst := congrArg (fun s : String => s.toList.head?) h
  simp [Target.quoted] at hfirst

/-- Only the action that is written and the tables on the stack are named. -/
theorem root_or_mem_of_standIn {r : TargetRef} {e : Entry} (he : x.entries[j]? = some e)
    (hinline : e.inlineQuery?.isSome) (hname : x.standIn stack r (.found j) = e.runtime.quoted) :
    j = x.root ∨ j ∈ stack := by
  by_contra hfree
  rw [not_or] at hfree
  obtain ⟨query, hquery⟩ := Option.isSome_iff_exists.1 hinline
  have hexpanded := inline?_eq_some_iff.2 ⟨he, hquery, hfree⟩
  simp only [standIn, hexpanded] at hname
  exact parenthesized_ne_quoted _ _ hname

end Expansion

/-! ## §2 Circles in texts -/

namespace Entry

/-- A text of the entry at the first position has a reference to the entry at the second. -/
def Refers (entries : List Entry) (i j : Nat) : Prop :=
  ∃ e, entries[i]? = some e ∧ ∃ s ∈ e.ownTexts, ∃ r ∈ Deferred.targets s,
    resolve entries r = .found j

theorem mem_ownTexts_of_inlineQuery? {e : Entry} {query : String}
    (h : e.inlineQuery? = some query) : query ∈ e.ownTexts := by
  unfold inlineQuery? at h
  split at h
  · next body hbody =>
    split at h
    · cases h
      simp [ownTexts, hbody]
    · cases h
  · cases h

end Entry

namespace Expansion

variable {x : Expansion} {stack : List Nat} {j : Nat} {s : String}

/-- A text that is filled in is one of an entry to which the action that is written and the tables
on the stack lead. -/
theorem Visits.exists_entry (h : x.Visits stack s) :
    ∃ i e, x.entries[i]? = some e ∧ s ∈ e.ownTexts ∧
      ∀ k, k = x.root ∨ k ∈ stack → ReflTransGen (Entry.Refers x.entries) k i := by
  -- Along the visit: a query that is come to is one step further from all of them.
  induction h with
  | @own e s he hs =>
    refine ⟨x.root, e, he, hs, ?_⟩
    rintro k (rfl | hk)
    · exact .refl
    · cases hk
  | @query stack s r j e query h hr hj hinline ih =>
    obtain ⟨i, d, hd, hs, hleads⟩ := ih
    obtain ⟨he, hquery, -⟩ := inline?_eq_some_iff.1 hinline
    refine ⟨j, e, he, Entry.mem_ownTexts_of_inlineQuery? hquery, ?_⟩
    have hij : Entry.Refers x.entries i j := ⟨d, hd, s, hs, r, hr, hj⟩
    rintro k (hroot | hk)
    · exact (hleads k (.inl hroot)).tail hij
    · rcases List.mem_cons.1 hk with rfl | hk
      · exact .refl
      · exact (hleads k (.inr hk)).tail hij

/-- A table that is named leads to itself. -/
theorem transGen_of_names (h : x.Names j) : TransGen (Entry.Refers x.entries) j j := by
  obtain ⟨stack, s, r, e, hvisits, hr, hj, he, hinline, hname⟩ := h
  obtain ⟨i, d, hd, hs, hleads⟩ := hvisits.exists_entry
  -- The text in which the table is named is where the circle closes.
  have hij : Entry.Refers x.entries i j := ⟨d, hd, s, hs, r, hr, hj⟩
  exact .tail' (hleads j (root_or_mem_of_standIn he hinline hname)) hij

end Expansion

/-! ## §3 Circles that are reported -/

namespace Entry

/-- Every reference in a text of an entry is one of its declared dependencies. -/
def DeclaresReferences (entries : List Entry) : Prop :=
  ∀ e ∈ entries, ∀ s ∈ e.ownTexts, ∀ r ∈ Deferred.targets s, r ∈ e.registration.dependencies

instance (entries : List Entry) : Decidable (DeclaresReferences entries) :=
  inferInstanceAs (Decidable (∀ e ∈ entries, ∀ s ∈ e.ownTexts, ∀ r ∈ Deferred.targets s, _))

variable {entries : List Entry} {e d : Entry} {i j : Nat}

/-- A declared reference is an edge, from what is referred to. -/
theorem edge_of_refers (hdeclared : DeclaresReferences entries) (h : Refers entries i j)
    (he : entries[i]? = some e) (hd : entries[j]? = some d) :
    (dag entries).Edge d.runtime e.runtime := by
  obtain ⟨e', he', s, hs, r, hr, hj⟩ := h
  cases he.symm.trans he'
  have hmem := List.mem_of_getElem? he
  apply edge_dag_iff.2 ⟨e, hmem, ?_, rfl⟩
  exact mem_dependencyTargets_iff.2 ⟨r, hdeclared e hmem s hs r hr, j, hj, d, hd, rfl⟩

/-- References go against the edges. -/
theorem transGen_edge_of_refers (hdeclared : DeclaresReferences entries)
    (h : TransGen (Refers entries) i j) (he : entries[i]? = some e) (hd : entries[j]? = some d) :
    TransGen (dag entries).Edge d.runtime e.runtime := by
  induction h generalizing d with
  | single hij => exact .single (edge_of_refers hdeclared hij he hd)
  | tail _ hjk ih =>
    -- What refers on is an entry itself, so it has a target.
    obtain ⟨c, hc, -⟩ := id hjk
    exact .head (edge_of_refers hdeclared hjk hc hd) (ih hc)

/-- One finding for each cycle of the dependencies. -/
theorem exists_finding_of_mem_cycles {cycle : List Target} (h : cycle ∈ (dag entries).cycles) :
    ∃ f ∈ Session.findings entries, f.cause = .cycle cycle := by
  have hcycle : ∃ f ∈ cycleFindings entries, f.cause = .cycle cycle :=
    ⟨_, List.mem_map_of_mem h, rfl⟩
  obtain ⟨f, hf, hcause⟩ := hcycle
  refine ⟨f, ?_, hcause⟩
  simp only [Session.findings, List.mem_append]
  exact .inl (.inr hf)

end Entry

namespace Session

theorem validationErrors_compile (s : Session) :
    s.compile.graphErrors.validationErrors = (findings s.entries).map Finding.toError :=
  rfl

/-- If all references in texts are declared and an inline table is named instead of being expanded,
a circle in the component of that table is reported. -/
theorem circular_of_names (s : Session) (hdeclared : Entry.DeclaresReferences s.entries)
    {i j : Nat} (h : (s.expansion i).Names j) :
    ∃ e cycle, s.entries[j]? = some e ∧
      e.runtime ∈ (Entry.dag s.entries).component e.runtime ∧
      (Entry.dag s.entries).IsCycleOf ((Entry.dag s.entries).component e.runtime) cycle ∧
      ∃ error ∈ s.compile.graphErrors.validationErrors,
        error.message =
          "Circular dependency detected in chain: [" ++ Dag.formatCycle cycle ++ "]" := by
  have hcircle := Expansion.transGen_of_names h
  obtain ⟨stack, text, r, e, -, -, -, he, -⟩ := h
  have hwf := Entry.dag_wellFormed s.entries
  have hedges := Entry.transGen_edge_of_refers hdeclared hcircle he he
  obtain ⟨cycle, hreported, hcycle⟩ := hwf.exists_cycle_of_transGen hedges
  refine ⟨e, cycle, he, hwf.mem_component_iff.2 ⟨hedges, hedges⟩, hcycle, ?_⟩
  obtain ⟨f, hf, hcause⟩ := Entry.exists_finding_of_mem_cycles hreported
  have hmessage : f.toError.message =
      "Circular dependency detected in chain: [" ++ Dag.formatCycle cycle ++ "]" := by
    rw [Finding.toError, hcause]
    rfl
  rw [validationErrors_compile]
  exact ⟨f.toError, List.mem_map_of_mem hf, hmessage⟩

/-- An inline table that reads from itself, with the given dependencies. -/
def selfNaming (dependencies : List TargetRef) : Session where
  config := {}
  coreVersion := "3.0.0"
  registrations :=
    [ { filePath := "definitions/p.sqlx", name := "p", dependencies
        payload := .table
          { type := .inline
            query := "select * from " ++ (Deferred.target (.named "p")).encode } } ]

/-- It is named in its own text, whatever it depends on. -/
theorem names_selfNaming (dependencies : List TargetRef) :
    ((selfNaming dependencies).expansion 0).Names 0 := by
  have htargets : .named "p" ∈ Deferred.targets
      ("select * from " ++ (Deferred.target (.named "p")).encode) := by decide +kernel
  have hresolve : Entry.resolve (selfNaming dependencies).entries (.named "p") = .found 0 := rfl
  have hroot : ((selfNaming dependencies).expansion 0).inline? [] 0 = none := rfl
  refine ⟨[], _, _, _, .own rfl List.mem_cons_self, htargets, hresolve, rfl, rfl, ?_⟩
  simp only [Expansion.standIn, hroot]
  rfl

/-- What it does not declare is not reported. -/
theorem not_reported_selfNaming :
    (selfNaming []).compile.graphErrors.validationErrors = [] := by
  decide +kernel

/-- What it declares is. -/
example : Entry.DeclaresReferences (selfNaming [.named "p"]).entries ∧
    (selfNaming [.named "p"]).compile.graphErrors.validationErrors =
      [⟨"definitions/p.sqlx", "Circular dependency detected in chain: [dataform.p > dataform.p]",
        some ⟨none, "dataform", "p"⟩⟩] := by
  decide +kernel

end Session

end SqlWorkflow
