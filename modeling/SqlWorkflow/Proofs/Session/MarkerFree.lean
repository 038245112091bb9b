import SqlWorkflow.Proofs.Session.CheckQueries
import SqlWorkflow.Proofs.Session.InlineCycles

/-!
# Markers in compiled graphs

Markers are filled in in the texts that a warehouse runs, and nothing of a marker is left there
(`Session.hasMarkers_filledTexts`).  The other texts of an action, such as its options, are copied
as they are, and so are the markers in them (`Session.hasMarkers_updatePartitionFilter`).

- **§1** Texts and targets without the start of a marker.
- **§2** What is filled in holds none (`Expansion.Sealed.hasMarkers_pieces`).
- **§3** Compiled graphs.
-/

namespace SqlWorkflow

/-! ## §1 Without markers -/

namespace Deferred

theorem hasMarkers_eq_false_iff {s : String} : hasMarkers s = false ↔ opening ∉ s.toList := by
  simp [hasMarkers]

@[simp] theorem hasMarkers_append (s t : String) :
    hasMarkers (s ++ t) = (hasMarkers s || hasMarkers t) := by
  rw [Bool.eq_iff_iff]
  simp [hasMarkers]

end Deferred

/-- No component of the target holds the start of a marker. -/
structure Target.MarkerFree (t : Target) : Prop where
  name : Deferred.hasMarkers t.name = false
  schema : Deferred.hasMarkers t.schema = false
  database : ∀ database ∈ t.database, Deferred.hasMarkers database = false

theorem Target.MarkerFree.quoted {t : Target} (h : t.MarkerFree) :
    Deferred.hasMarkers t.quoted = false := by
  have hdot : Deferred.hasMarkers "." = false := rfl
  have hquote : Deferred.hasMarkers "`" = false := rfl
  have hreadable : Deferred.hasMarkers t.readable = false := by
    unfold readable
    split
    · next database hdatabase =>
      simp [h.name, h.schema, h.database database hdatabase, hdot]
    · simp [h.name, h.schema, hdot]
  simp [Target.quoted, hreadable, hquote]

/-! ## §2 Filling in -/

namespace Expansion

open Deferred

/-- No literal text among the pieces holds the start of a marker, and neither does the name that
stands for a reference if it resolves to no single entry. -/
structure Fillable (x : Expansion) (ps : List Piece) : Prop where
  apart : Apart ps
  fallback : ∀ r, .marker (.target r) ∈ ps → (x.fallback r).MarkerFree

/-- The entries have names without the start of a marker, and texts that can be filled in. -/
structure Sealed (x : Expansion) : Prop where
  targets : ∀ e ∈ x.entries, e.runtime.MarkerFree
  texts : ∀ e ∈ x.entries, ∀ s ∈ e.ownTexts, x.Fillable (Deferred.pieces s)

variable {x : Expansion} {stack : List Nat} {owner : Entry} {ps : List Piece} {r : TargetRef}

theorem Fillable.tail {p : Piece} (h : x.Fillable (p :: ps)) : x.Fillable ps :=
  ⟨h.apart.tail, fun r hr => h.fallback r (List.mem_cons_of_mem _ hr)⟩

/-- A name holds no marker. -/
theorem Sealed.hasMarkers_nameOf (h : x.Sealed) (hr : (x.fallback r).MarkerFree)
    (resolution : Entry.Resolution) : hasMarkers (x.nameOf r resolution) = false := by
  unfold nameOf
  split
  · split
    · next e he => exact (h.targets e (List.mem_of_getElem? he)).quoted
    · exact hr.quoted
  · exact hr.quoted

/-- Whatever is expanded on the way, nothing that is filled in holds a marker. -/
theorem Sealed.hasMarkers_pieces (h : x.Sealed) (howner : owner.runtime.MarkerFree)
    (hps : x.Fillable ps) : hasMarkers (x.pieces stack owner ps) = false := by
  induction stack, owner, ps using pieces.induct x with
  | case1 => rw [pieces]; rfl
  | case2 stack owner s rest ih =>
    have hliteral := hasMarkers_eq_false_iff.2 (hps.apart s List.mem_cons_self)
    rw [pieces]
    simp [hliteral, ih howner hps.tail]
  | case3 stack owner d rest ihInline ih =>
    rw [pieces_cons_marker, hasMarkers_append, ih howner hps.tail, Bool.or_false]
    cases d with
    | selfTarget => exact howner.quoted
    | selfSchema => exact howner.schema
    | selfDatabase =>
      unfold fill
      cases hdatabase : owner.runtime.database with
      | none => rfl
      | some database => exact howner.database database hdatabase
    | target r =>
      have hname := h.hasMarkers_nameOf (hps.fallback r List.mem_cons_self)
      show hasMarkers (x.standIn stack r (Entry.resolve x.entries r)) = false
      cases Entry.resolve x.entries r with
      | missing => exact hname .missing
      | ambiguous positions => exact hname (.ambiguous positions)
      | found i =>
        simp only [standIn]
        split
        · next e query hinline =>
          -- The query is a text of the table, and the table is its owner now.
          obtain ⟨he, hquery, -⟩ := inline?_eq_some_iff.1 hinline
          have hmem := List.mem_of_getElem? he
          have hexpanded := ihInline i e query hinline (h.targets e hmem)
            (h.texts e hmem query (Entry.mem_ownTexts_of_inlineQuery? hquery))
          have hopen : hasMarkers "(" = false := rfl
          have hclose : hasMarkers ")" = false := rfl
          simp [hexpanded, hopen, hclose]
        · exact hname (.found i)

/-- No text of an action holds a marker after it is filled in. -/
theorem Sealed.hasMarkers_text (h : x.Sealed) {e : Entry} (he : e ∈ x.entries) {s : String}
    (hs : s ∈ e.ownTexts) : hasMarkers (x.text e s) = false :=
  h.hasMarkers_pieces (h.targets e he) (h.texts e he s hs)

end Expansion

/-! ## §3 Compiled graphs -/

/-- The texts of a finished action in which markers have been filled in. -/
def Action.filledTexts : Action → List String
  | .table a =>
    a.query :: a.incrementalQuery.toList ++ a.preOps ++ a.postOps ++ a.incrementalWhere.toList
  | .operation a => a.queries
  | .assertion a => [a.query]
  | .declaration _ => []
  | .notebook _ => []

theorem Entry.filledTexts_finish (config : ProjectConfig) (entries : List Entry) (e : Entry)
    (position : Nat) :
    (e.finish config entries position).filledTexts =
      e.ownTexts.map ((⟨config, entries, position⟩ : Expansion).text e) := by
  unfold finish ownTexts
  cases e.registration.payload with
  | table b =>
    simp only [Action.filledTexts, List.map_append, List.map_cons]
    cases b.incrementalQuery <;> cases b.incrementalWhere <;> rfl
  | operation queries hasOutput => rfl
  | assertion query => rfl
  | declaration => rfl
  | notebook contents => rfl

namespace Session

/-- If all targets are without markers, those that unresolved references fall back to included, and
markers stand in texts only where they are written, nothing of a marker is left in the texts that
are filled in. -/
theorem hasMarkers_filledTexts (s : Session) (htargets : ∀ e ∈ s.entries, e.runtime.MarkerFree)
    (htexts : ∀ e ∈ Entry.declared s.config s.registrations,
      (∀ t ∈ e.ownTexts, Deferred.Whole t) ∧ Entry.WholeChecks e.checkedAssertions)
    (hfallback : ∀ e ∈ s.entries, ∀ t ∈ e.ownTexts, ∀ r ∈ Deferred.targets t,
      ((s.expansion 0).fallback r).MarkerFree) :
    ∀ a ∈ s.compile.actions, ∀ t ∈ a.filledTexts, Deferred.hasMarkers t = false := by
  intro a ha t ht
  obtain ⟨i, e, he, rfl⟩ := mem_actions_compile_iff.1 ha
  rw [Entry.filledTexts_finish, List.mem_map] at ht
  obtain ⟨text, htext, rfl⟩ := ht
  have hsealed : (s.expansion i).Sealed := by
    refine ⟨htargets, ?_⟩
    intro e' he' text' htext'
    refine ⟨(Entry.whole_ownTexts htexts he' htext').apart_pieces, ?_⟩
    intro r hr
    exact hfallback e' he' text' htext' r (Deferred.mem_targets_iff.2 hr)
  exact hsealed.hasMarkers_text (List.mem_of_getElem? he) htext

/-- A table's keys, options, tags and documentation are those of its registration. -/
theorem exists_table_of_registration (s : Session) {r : Registration} (hr : r ∈ s.registrations)
    {body : TableBody} (hbody : r.payload = .table body) :
    ∃ a, .table a ∈ s.compile.actions ∧
      a.header.canonicalTarget = Entry.canonicalTarget s.config r ∧
      a.uniqueKey = body.uniqueKey ∧ a.bigquery = body.bigquery ∧ a.header.tags = r.tags ∧
      a.header.descriptor = if r.descriptor.isEmpty then none else some r.descriptor := by
  have hmem : Entry.ofRegistration s.config r none ∈ s.entries := Entry.ofRegistration_mem hr
  obtain ⟨i, hi⟩ := List.mem_iff_getElem?.1 hmem
  have hfinish : ∃ a,
      (Entry.ofRegistration s.config r none).finish s.config s.entries i = .table a ∧
      a.header = Entry.header s.entries (Entry.ofRegistration s.config r none) ∧
      a.uniqueKey = body.uniqueKey ∧ a.bigquery = body.bigquery := by
    simp [Entry.finish, Entry.ofRegistration, hbody]
  obtain ⟨a, ha, hheader, hkey, hoptions⟩ := hfinish
  refine ⟨a, ?_, ?_, hkey, hoptions, ?_, ?_⟩
  · rw [← ha]
    exact mem_actions_compile_iff.2 ⟨i, _, hi, rfl⟩
  · rw [hheader]
    rfl
  · rw [hheader]
    rfl
  · rw [hheader]
    rfl

/-- An incremental table whose options tell the rows to update by a query on the table itself: the
marker for the table is still in the graph. -/
theorem hasMarkers_updatePartitionFilter :
    let filter := "day >= (select max(day) from " ++ Deferred.selfTarget.encode ++ ")"
    let days : Registration :=
      { filePath := "days.sqlx", name := "days"
        payload := .table
          { type := .incremental, query := "SELECT 1 AS day", incrementalWhere := some filter
            bigquery := some { updatePartitionFilter := some filter } } }
    let s : Session := { config := {}, coreVersion := "3.0.0", registrations := [days] }
    ∃ a, .table a ∈ s.compile.actions ∧
      a.bigquery = some { updatePartitionFilter := some filter } ∧
      Deferred.hasMarkers filter = true := by
  intro filter days s
  obtain ⟨a, ha, -, -, hoptions, -⟩ :=
    s.exists_table_of_registration (r := days) List.mem_cons_self rfl
  exact ⟨a, ha, hoptions, by decide +kernel⟩

end Session

end SqlWorkflow
