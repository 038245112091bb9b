import SqlWorkflow.Proofs.Session.UnitTests
import SqlWorkflow.Evaluation.Argument
import SqlWorkflow.Outcome
import SqlWorkflow.Proofs.Template.Interchange

/-!
# Names of inputs

A test looks for the input of a reference under the names that spell the reference, and what is said
about a reference without an input names it by the text that it is written as.  So an input set
under the text in the report is found if and only if a text spells the reference
(`inputFor?_setInput_readable`): who does what the reports ask for is left with the reports about
references that no text spells (`missingReferences_provide`).

- **§1** Where references come from: a dotted name spells the reference that it gives
  (`spelled_of_referenceOf_text`), several names do without dots in them
  (`spelled_iff_of_referenceOf_texts`), and a dictionary gives every reference
  (`referenceOf_partsValue`).
- **§2** The input under the name of a reference.
- **§3** Inputs for all that is missing.
-/

namespace SqlWorkflow

/-! ## §1 Where references come from -/

/-- What is written for each of some things is read from all of them. -/
theorem mapM_map_eq_ok {α β ε : Type} {f : β → Except ε α} {g : α → β}
    (h : ∀ a, f (g a) = .ok a) (l : List α) : (l.map g).mapM f = .ok l := by
  have hread : l.mapM (f ∘ g) = .ok (l.map id) := mapM_eq_ok_of_forall fun a _ => h a
  rw [List.mapM_map, hread, List.map_id]

namespace Evaluation

open Template

/-- A dotted name spells the reference that it gives. -/
theorem spelled_of_referenceOf_text {s : String} {r : TargetRef}
    (h : referenceOf [.text s] = .ok r) : r.Spelled := by
  change (if s.isEmpty then _ else _) = _ at h
  split at h
  · cases h
  · cases h
    exact TargetRef.spelled_parse s

theorem referenceOf_texts {parts : List String} (hlen : parts.length ≠ 1) :
    referenceOf (parts.map .text) =
      (TargetRef.ofParts parts).mapError fun e => .action (.reference e) := by
  rcases parts with _ | ⟨a, _ | ⟨b, rest⟩⟩
  · rfl
  · exact absurd rfl hlen
  · change (List.mapM _ (List.map Value.text (a :: b :: rest)) >>= _) = _
    rw [mapM_map_eq_ok]
    · rfl
    · exact fun _ => rfl

/-- Several texts are the parts of the reference; a text spells it if and only if there is no dot in
them. -/
theorem spelled_iff_of_referenceOf_texts {parts : List String} {r : TargetRef}
    (hlen : parts.length ≠ 1) (h : referenceOf (parts.map .text) = .ok r) :
    r.Spelled ↔ ∀ part ∈ parts, '.' ∉ part.toList := by
  rw [referenceOf_texts hlen] at h
  obtain ⟨hparts, hname, hschema⟩ :=
    TargetRef.ofParts_eq_ok_iff.1 (eq_ok_of_mapError_eq_ok h)
  constructor
  · rintro (⟨hdots, -, -⟩ | -)
    · rwa [hparts]
    · exact absurd (congrArg List.length hparts) hlen
  · intro hdots
    exact .parts (hparts ▸ hdots) hname hschema

/-- The parts of a reference that are present, by their names and in the order of these. -/
def namedParts (r : TargetRef) : List (String × String) :=
  (r.database.map fun s => ("database", s)).toList ++
    ("name", r.name) :: (r.schema.map fun s => ("schema", s)).toList

/-- The dictionary of the parts of a reference that are present. -/
def partsValue (r : TargetRef) : Value :=
  .dict ((namedParts r).map fun entry => (Value.text entry.1, Value.text entry.2))

theorem sorted_namedParts (r : TargetRef) : SortedEntries (namedParts r) := by
  have hnames : ["database", "name", "schema"].Pairwise (· < ·) := by decide
  have hsorted : ∀ entries : List (String × String),
      (entries.map Prod.fst).Sublist ["database", "name", "schema"] → SortedEntries entries :=
    fun entries h => List.pairwise_map.1 (hnames.sublist h)
  obtain ⟨database, schema, name⟩ := r
  cases database <;> cases schema <;> exact hsorted _ (List.isSublist_iff_sublist.1 rfl)

theorem toJson_partsValue (r : TargetRef) :
    (partsValue r).toJson = .obj ((namedParts r).map fun entry => (entry.1, .str entry.2)) := by
  have htexts : (namedParts r).map (fun entry => (Value.text entry.1, Value.text entry.2)) =
      Value.textEntries ((namedParts r).map fun entry => (entry.1, .text entry.2)) := by
    rw [Value.textEntries, List.map_map]
    rfl
  have hsorted : SortedEntries ((namedParts r).map fun entry => (entry.1, Json.str entry.2)) :=
    List.pairwise_map.2 (sorted_namedParts r)
  rw [partsValue, htexts, Value.toJson, Value.entriesJson_textEntries, List.map_map]
  exact congrArg Json.obj (sortEntries_of_sorted hsorted)

/-- A dictionary gives every reference, whatever its parts hold. -/
theorem referenceOf_partsValue (r : TargetRef) : referenceOf [partsValue r] = .ok r := by
  change (TargetRef.decode .jsonValue (partsValue r).toJson.toDoc).mapError _ = _
  rw [toJson_partsValue]
  obtain ⟨database, schema, name⟩ := r
  cases database <;> cases schema <;> rfl

end Evaluation

/-! ## §2 The input under the name of a reference -/

namespace UnitTest

variable {test : UnitTest} {r : TargetRef}

/-- A reference that no text spells has no input. -/
theorem inputFor?_of_not_spelled (h : ¬ r.Spelled) : test.inputFor? r = none := by
  rw [inputFor?_eq, if_neg (mt TargetRef.parse_readable_eq_iff.1 h)]

/-- The input that is set under the text of a reference is the one for the reference, if a text can
spell it. -/
theorem inputFor?_setInput_readable (test : UnitTest) (r : TargetRef) (query : String) :
    (test.setInput r.readable query).inputFor? r = if r.Spelled then some query else none := by
  split
  · next h => rw [inputFor?_setInput, if_pos h.parse_readable]
  · next h => exact inputFor?_of_not_spelled h

/-- Setting an input takes none away. -/
theorem isSome_inputFor?_setInput_iff (test : UnitTest) (name query : String) (r : TargetRef) :
    ((test.setInput name query).inputFor? r).isSome ↔
      (test.inputFor? r).isSome ∨ TargetRef.parse name = r := by
  rw [inputFor?_setInput]
  split
  · next h => simp [h]
  · next h => simp [h]

end UnitTest

/-! ## §3 Inputs for all that is missing -/

/-- The references of a text, from first to last. -/
def Deferred.references (text : String) : List TargetRef :=
  (Deferred.markers text).filterMap fun
    | .target r => some r
    | _ => none

namespace UnitTest

variable {r : TargetRef}

/-- The references of a query for which a test has no input, from first to last. -/
def missingReferences (test : UnitTest) (query : String) : List TargetRef :=
  (Deferred.references query).filter fun r => (test.inputFor? r).isNone

/-- What a test with a query is short of is reported for each of these references. -/
theorem missingInputs_eq (test : UnitTest) (query : String) :
    test.missingInputs query = (test.missingReferences query).map .noInput := by
  unfold missingInputs missingReferences Deferred.references
  induction Deferred.markers query with
  | nil => rfl
  | cons d ds ih =>
    rw [List.filterMap_cons, List.filterMap_cons]
    cases d with
    | target r =>
      cases hinput : test.inputFor? r <;> simp [hinput, ih]
    | _ => exact ih

/-- The test with an input for each of some references, under the text that reports name it by. -/
def provide (inputOf : TargetRef → String) (test : UnitTest) (rs : List TargetRef) : UnitTest :=
  rs.foldl (fun test r => test.setInput r.readable (inputOf r)) test

theorem isSome_inputFor?_provide_iff {inputOf : TargetRef → String} {test : UnitTest}
    {rs : List TargetRef} :
    ((test.provide inputOf rs).inputFor? r).isSome ↔
      (test.inputFor? r).isSome ∨ ∃ s ∈ rs, TargetRef.parse s.readable = r := by
  induction rs generalizing test with
  | nil => simp [provide]
  | cons s rs ih =>
    have hstep := isSome_inputFor?_setInput_iff test s.readable (inputOf s) r
    rw [provide, List.foldl_cons, ← provide, ih, hstep, or_assoc, List.exists_mem_cons_iff]

theorem mem_missingReferences_iff {test : UnitTest} {query : String} :
    r ∈ test.missingReferences query ↔
      r ∈ Deferred.references query ∧ test.inputFor? r = none := by
  rw [missingReferences, List.mem_filter, Option.isNone_iff_eq_none]

theorem inputFor?_provide_eq_none_iff {inputOf : TargetRef → String} {test : UnitTest}
    {query : String} (hr : r ∈ Deferred.references query) :
    (test.provide inputOf (test.missingReferences query)).inputFor? r = none ↔
      ¬ r.Spelled ∧ test.inputFor? r = none := by
  rw [← Option.not_isSome_iff_eq_none, isSome_inputFor?_provide_iff, not_or,
    Option.not_isSome_iff_eq_none, and_comm]
  refine and_congr_left fun hnone => ⟨fun hno hspelled => hno ?_, ?_⟩
  · exact ⟨r, mem_missingReferences_iff.2 ⟨hr, hnone⟩, hspelled.parse_readable⟩
  · rintro hno ⟨s, -, rfl⟩
    exact hno (TargetRef.spelled_parse s.readable)

/-- Who provides an input under each name that is reported is left with the reports about the
references that no text spells. -/
theorem missingReferences_provide (inputOf : TargetRef → String) (test : UnitTest)
    (query : String) :
    (test.provide inputOf (test.missingReferences query)).missingReferences query =
      (test.missingReferences query).filter fun r => ¬ r.Spelled := by
  rw [missingReferences, missingReferences, List.filter_filter, ← missingReferences]
  apply List.filter_congr
  intro r hr
  rw [Bool.eq_iff_iff, Bool.and_eq_true, decide_eq_true_eq, Option.isNone_iff_eq_none,
    Option.isNone_iff_eq_none]
  exact inputFor?_provide_eq_none_iff hr

/-- A reference with a database and without a schema is written like one with a schema. -/
example : ¬ TargetRef.Spelled { database := some "sales", name := "orders" } := by decide

end UnitTest

end SqlWorkflow
