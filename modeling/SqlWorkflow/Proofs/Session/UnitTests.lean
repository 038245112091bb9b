import SqlWorkflow.Proofs.Session.Resolution
import SqlWorkflow.Proofs.Target.Markers
import SqlWorkflow.Proofs.Target.Spelling

/-!
# Unit tests

What becomes of the unit tests of a project is said here rule by rule, without the functions that
compute it.

- **§1** The input for a reference is the one whose name spells the reference
  (`inputFor?_eq_some_iff`); there are no two, as the name can be read off the reference
  (`TargetRef.readable_parse`).
- **§2** The tested query: every marker is answered by the test itself (`Rewrites`).
- **§3** The dataset of a test (`Dataset`), and the query that it is tested with (`Tested`).  The
  rules give what is computed (`tested_query`) and nothing else (`Tested.eq_query`).
- **§4** What becomes of a declaration depends on those before it (`Concludes`).  The finished tests
  are those that are kept, in the order of their names.
-/

namespace SqlWorkflow

/-! ## §1 Inputs -/

theorem lookupEntry_eq_find? {α : Type} (name : String) (entries : List (String × α)) :
    lookupEntry name entries = (entries.find? fun entry => entry.1 = name).map (·.2) := by
  induction entries with
  | nil => rfl
  | cons entry rest ih =>
    rw [lookupEntry, List.find?_cons]
    by_cases hname : name = entry.1
    · simp [hname]
    · simp [hname, Ne.symm hname, ih]

namespace UnitTest

variable {test : UnitTest} {r : TargetRef}

/-- The input for a reference is the one under the text that spells the reference. -/
theorem inputFor?_eq (test : UnitTest) (r : TargetRef) :
    test.inputFor? r =
      if TargetRef.parse r.readable = r then test.inputs.get? r.readable else none := by
  unfold inputFor? Dict.get?
  rw [lookupEntry_eq_find?]
  split
  · next hspells =>
    congr 2
    funext entry
    rw [decide_eq_decide]
    constructor
    · rintro rfl
      exact (TargetRef.readable_parse entry.1).symm
    · intro hname
      rw [hname, hspells]
  · next hno =>
    -- Whatever name spelled the reference would be the text that the reference gives.
    rw [Option.map_eq_none_iff, List.find?_eq_none]
    intro entry _ hspells
    rw [decide_eq_true_eq] at hspells
    apply hno
    rw [← hspells, TargetRef.readable_parse]

theorem inputFor?_eq_some_iff {input : String} :
    test.inputFor? r = some input ↔
      ∃ name, TargetRef.parse name = r ∧ test.inputs.get? name = some input := by
  rw [inputFor?_eq]
  constructor
  · intro h
    split at h
    · next hspells => exact ⟨r.readable, hspells, h⟩
    · cases h
  · rintro ⟨name, rfl, hinput⟩
    rw [TargetRef.readable_parse, if_pos rfl, hinput]

/-- An input that is set is the one for the reference that its name spells. -/
theorem inputFor?_setInput (test : UnitTest) (name query : String) (r : TargetRef) :
    (test.setInput name query).inputFor? r =
      if TargetRef.parse name = r then some query else test.inputFor? r := by
  rw [inputFor?_eq, inputFor?_eq]
  unfold setInput
  by_cases hname : TargetRef.parse name = r
  · subst hname
    rw [TargetRef.readable_parse, if_pos rfl, if_pos rfl, Dict.get?_insert_self]
  · rw [if_neg hname]
    split
    · next hspells =>
      apply Dict.get?_insert_ne
      intro heq
      exact hname (heq ▸ hspells)
    · rfl

/-! ## §2 The tested query -/

/-- What a test puts in the place of a marker, and what it says about that. -/
inductive Answers (test : UnitTest) : Deferred → String → List String → Prop
  /-- A reference is answered by the input under a name that spells it. -/
  | input {r : TargetRef} {name input : String} (hname : TargetRef.parse name = r)
      (hinput : test.inputs.get? name = some input) :
      Answers test (.target r) ("(" ++ input ++ ")") []
  /-- A reference for which there is no input is left out. -/
  | noInput {r : TargetRef}
      (hnone : ∀ name, TargetRef.parse name = r → test.inputs.get? name = none) :
      Answers test (.target r) ""
        ["Input for dataset \"" ++ r.readable ++ "\" has not been provided."]
  | selfTarget : Answers test .selfTarget "" []
  | selfSchema : Answers test .selfSchema "" []
  | selfDatabase : Answers test .selfDatabase "" []

/-- What a test makes of the pieces of a query, and what it says about them. -/
inductive Rewrites (test : UnitTest) : List Deferred.Piece → String → List String → Prop
  | nil : Rewrites test [] "" []
  | literal {s out : String} {ps : List Deferred.Piece} {messages : List String}
      (hrest : Rewrites test ps out messages) :
      Rewrites test (.literal s :: ps) (s ++ out) messages
  | marker {d : Deferred} {text out : String} {ps : List Deferred.Piece}
      {here messages : List String} (hhere : Answers test d text here)
      (hrest : Rewrites test ps out messages) :
      Rewrites test (.marker d :: ps) (text ++ out) (here ++ messages)

/-- There is one input at most for a reference. -/
theorem Answers.unique {d : Deferred} {text text' : String} {messages messages' : List String}
    (h : Answers test d text messages) (h' : Answers test d text' messages') :
    text = text' ∧ messages = messages' := by
  cases h with
  | input hname hinput =>
    cases h' with
    | input hname' hinput' =>
      -- The reference tells the name under which the input stands.
      have hsame := congrArg TargetRef.readable (hname.trans hname'.symm)
      rw [TargetRef.readable_parse, TargetRef.readable_parse] at hsame
      subst hsame
      cases hinput.symm.trans hinput'
      exact ⟨rfl, rfl⟩
    | noInput hnone => cases hinput.symm.trans (hnone _ hname)
  | noInput hnone =>
    cases h' with
    | input hname hinput => cases hinput.symm.trans (hnone _ hname)
    | noInput => exact ⟨rfl, rfl⟩
  | selfTarget =>
    cases h'
    exact ⟨rfl, rfl⟩
  | selfSchema =>
    cases h'
    exact ⟨rfl, rfl⟩
  | selfDatabase =>
    cases h'
    exact ⟨rfl, rfl⟩

theorem Rewrites.unique {ps : List Deferred.Piece} {out out' : String}
    {messages messages' : List String} (h : Rewrites test ps out messages)
    (h' : Rewrites test ps out' messages') : out = out' ∧ messages = messages' := by
  induction h generalizing out' messages' with
  | nil =>
    cases h'
    exact ⟨rfl, rfl⟩
  | literal _ ih =>
    cases h' with
    | literal hrest =>
      obtain ⟨rfl, rfl⟩ := ih hrest
      exact ⟨rfl, rfl⟩
  | marker hhere _ ih =>
    cases h' with
    | marker hhere' hrest =>
      obtain ⟨rfl, rfl⟩ := hhere.unique hhere'
      obtain ⟨rfl, rfl⟩ := ih hrest
      exact ⟨rfl, rfl⟩

/-- What is wrong with a marker: there is no input for it. -/
def noInput? (test : UnitTest) : Deferred → Option TestProblem
  | .target r => if (test.inputFor? r).isSome then none else some (.noInput r)
  | _ => none

theorem answers_fill (test : UnitTest) (d : Deferred) :
    Answers test d (test.fill d) ((test.noInput? d).toList.map TestProblem.message) := by
  cases d with
  | selfTarget => exact .selfTarget
  | selfSchema => exact .selfSchema
  | selfDatabase => exact .selfDatabase
  | target r =>
    cases hinput : test.inputFor? r with
    | some input =>
      obtain ⟨name, hname, hvalue⟩ := inputFor?_eq_some_iff.1 hinput
      simp only [fill, noInput?, hinput, Option.isSome_some, if_true]
      exact .input hname hvalue
    | none =>
      simp only [fill, noInput?, hinput, Option.isSome_none, Bool.false_eq_true, if_false]
      -- An input for one of the names would have been found.
      apply Answers.noInput
      intro name hname
      rw [Option.eq_none_iff_forall_ne_some]
      intro input hvalue
      have hsome := inputFor?_eq_some_iff.2 ⟨name, hname, hvalue⟩
      rw [hinput] at hsome
      cases hsome

/-- The query of a finished test is what the rules say, and so is what is wrong with it. -/
theorem rewrites_substitute (test : UnitTest) (query : String) :
    Rewrites test (Deferred.pieces query) (Deferred.substitute test.fill query)
      ((test.missingInputs query).map TestProblem.message) := by
  have hmissing : test.missingInputs query =
      (Deferred.markers query).filterMap test.noInput? := rfl
  rw [hmissing, Deferred.substitute_eq, Deferred.markers]
  -- Both the text and the messages are put together piece by piece.
  induction Deferred.pieces query with
  | nil => exact .nil
  | cons piece ps ih =>
    rw [List.map_cons, String.join_cons]
    cases piece with
    | literal s => exact .literal ih
    | marker d =>
      have hcons : ∀ ds : List Deferred, ((d :: ds).filterMap test.noInput?).map
          TestProblem.message = (test.noInput? d).toList.map TestProblem.message ++
            (ds.filterMap test.noInput?).map TestProblem.message := by
        intro ds
        rw [List.filterMap_cons]
        cases test.noInput? d <;> rfl
      rw [List.filterMap_cons]
      dsimp only
      rw [hcons]
      exact .marker (answers_fill test d) ih

/-! ## §3 The dataset -/

/-- The entry that a test is about, and what is said about the reference to it. -/
inductive Dataset (entries : List Entry) (r : TargetRef) : Option Entry → List String → Prop
  | missing (hresolve : Entry.resolve entries r = .missing)
      (hnone : ∀ i e, ¬ Entry.FitsAt entries r i e) : Dataset entries r none []
  | found {i : Nat} {e : Entry} (hresolve : Entry.resolve entries r = .found i)
      (hone : Entry.Represents entries r [(i, e)]) : Dataset entries r (some e) []
  /-- Of several candidates the one with the least runtime target is taken. -/
  | ambiguous {i j : Nat} {e d : Entry} {cs : List (Nat × Entry)}
      (hresolve : Entry.resolve entries r = .ambiguous (i :: j :: cs.map (·.1)))
      (hseveral : Entry.Represents entries r ((i, e) :: (j, d) :: cs)) :
      Dataset entries r (some e)
        [ambiguousMessage r (e.canonical :: d.canonical :: cs.map (·.2.canonical))]

/-- The query of a test, and what is said about the test. -/
inductive Tested (entries : List Entry) (test : UnitTest) : String → List String → Prop
  | noDataset (hdataset : test.dataset = none) :
      Tested entries test "" ["Tests must operate upon a specified dataset."]
  | table {r : TargetRef} {e : Entry} {body : TableBody} {query : String}
      {ambiguity missing : List String} (hdataset : test.dataset = some r)
      (he : Dataset entries r (some e) ambiguity) (hbody : e.registration.payload = .table body)
      (htype : body.type ≠ .incremental)
      (hquery : Rewrites test (Deferred.pieces body.query) query missing) :
      Tested entries test query (ambiguity ++ missing)
  | incremental {r : TargetRef} {e : Entry} {body : TableBody} {ambiguity : List String}
      (hdataset : test.dataset = some r) (he : Dataset entries r (some e) ambiguity)
      (hbody : e.registration.payload = .table body) (htype : body.type = .incremental) :
      Tested entries test ""
        (ambiguity ++ ["Running tests on incremental datasets is not yet supported."])
  | noTable {r : TargetRef} {e : Entry} {ambiguity : List String}
      (hdataset : test.dataset = some r) (he : Dataset entries r (some e) ambiguity)
      (hbody : ∀ body, e.registration.payload ≠ .table body) :
      Tested entries test ""
        (ambiguity ++ ["Dataset " ++ r.readable ++ " could not be found."])
  | notFound {r : TargetRef} (hdataset : test.dataset = some r)
      (hnone : Dataset entries r none []) :
      Tested entries test "" ["Dataset " ++ r.readable ++ " could not be found."]

theorem Dataset.unique {entries : List Entry} {found found' : Option Entry}
    {messages messages' : List String} (h : Dataset entries r found messages)
    (h' : Dataset entries r found' messages') : found = found' ∧ messages = messages' := by
  -- The rules differ in how many targets fit: none, one or several.
  cases h with
  | missing _ hnone =>
    cases h' with
    | missing => exact ⟨rfl, rfl⟩
    | found _ hone => exact absurd (hone.fits _ List.mem_cons_self) (hnone _ _)
    | ambiguous _ hseveral => exact absurd (hseveral.fits _ List.mem_cons_self) (hnone _ _)
  | found _ hone =>
    cases h' with
    | missing _ hnone => exact absurd (hone.fits _ List.mem_cons_self) (hnone _ _)
    | found _ hone' =>
      cases hone.eq hone'
      exact ⟨rfl, rfl⟩
    | ambiguous _ hseveral => cases hone.eq hseveral
  | ambiguous _ hseveral =>
    cases h' with
    | missing _ hnone => exact absurd (hseveral.fits _ List.mem_cons_self) (hnone _ _)
    | found _ hone => cases hseveral.eq hone
    | ambiguous _ hseveral' =>
      cases hseveral.eq hseveral'
      exact ⟨rfl, rfl⟩

theorem dataset_datasetEntry (entries : List Entry) (r : TargetRef) :
    Dataset entries r (datasetEntry entries r).1
      ((datasetEntry entries r).2.map TestProblem.message) := by
  have hranked := Entry.represents_ranked entries r
  have hresolve := hranked.resolve_eq
  have hcanonical := hranked.canonicalTargets_eq
  generalize Entry.ranked entries r = cs at hranked hresolve hcanonical
  -- None, one or several entries stand for those that the reference fits.
  rcases cs with _ | ⟨⟨i, e⟩, _ | ⟨⟨j, d⟩, cs⟩⟩
  · have hmissing : Entry.resolve entries r = .missing := hresolve
    simp only [datasetEntry, hmissing]
    apply Dataset.missing hmissing
    intro i e hfits
    obtain ⟨c, hc, -⟩ := hranked.complete i e hfits
    cases hc
  · have hfound : Entry.resolve entries r = .found i := hresolve
    have he : entries[i]? = some e := (hranked.fits (i, e) List.mem_cons_self).1
    simp only [datasetEntry, hfound, he]
    exact .found hfound hranked
  · have hambiguous : Entry.resolve entries r = .ambiguous (i :: j :: cs.map (·.1)) := hresolve
    have he : entries[i]? = some e := (hranked.fits (i, e) List.mem_cons_self).1
    simp only [List.map_cons] at hcanonical
    simp only [datasetEntry, hambiguous, List.head?_cons, Option.bind_some, he, hcanonical]
    exact .ambiguous hambiguous hranked

/-- The query of a test and what is wrong with it are what the rules say. -/
theorem tested_query (entries : List Entry) (test : UnitTest) :
    Tested entries test (test.query entries).1
      ((test.query entries).2.map TestProblem.message) := by
  unfold query
  cases hdataset : test.dataset with
  | none => exact .noDataset hdataset
  | some r =>
    have hentry := dataset_datasetEntry entries r
    dsimp only
    generalize datasetEntry entries r = answer at hentry ⊢
    obtain ⟨found, problems⟩ := answer
    dsimp only at hentry ⊢
    cases found with
    | none =>
      -- Nothing is said about a reference that fits no entry, except that it does not.
      obtain rfl : problems = [] := by
        rw [← List.map_eq_nil_iff (f := TestProblem.message)]
        generalize problems.map TestProblem.message = messages at hentry
        cases hentry
        rfl
      exact .notFound hdataset hentry
    | some e =>
      rw [Option.bind_some]
      cases hpayload : e.registration.payload with
      | table body =>
        simp only [tableBody?, hpayload]
        split
        · next htype =>
          rw [List.map_append]
          exact .incremental hdataset hentry hpayload htype
        · next htype =>
          rw [List.map_append]
          exact .table hdataset hentry hpayload htype (rewrites_substitute test body.query)
      | _ =>
        simp only [tableBody?, hpayload, List.map_append]
        apply Tested.noTable hdataset hentry
        simp [hpayload]

/-- And they leave nothing open. -/
theorem Tested.eq_query {entries : List Entry} {testQuery : String} {messages : List String}
    (h : Tested entries test testQuery messages) :
    testQuery = (test.query entries).1 ∧
      messages = (test.query entries).2.map TestProblem.message := by
  unfold query
  -- In each rule the dataset is the one that is found, as there is no other.
  cases h with
  | noDataset hdataset =>
    rw [hdataset]
    exact ⟨rfl, rfl⟩
  | @table r e body _ _ _ hdataset he hbody htype hquery =>
    obtain ⟨hfound, rfl⟩ := he.unique (dataset_datasetEntry entries r)
    obtain ⟨rfl, rfl⟩ := hquery.unique (rewrites_substitute test body.query)
    simp only [hdataset, ← hfound, Option.bind_some, tableBody?, hbody, if_neg htype,
      List.map_append, and_self]
  | @incremental r e body _ hdataset he hbody htype =>
    obtain ⟨hfound, rfl⟩ := he.unique (dataset_datasetEntry entries r)
    simp only [hdataset, ← hfound, Option.bind_some, tableBody?, hbody, if_pos htype,
      List.map_append, true_and]
    rfl
  | @noTable r e _ hdataset he hbody =>
    obtain ⟨hfound, rfl⟩ := he.unique (dataset_datasetEntry entries r)
    have hnone : tableBody? e = none := by
      unfold tableBody?
      split
      · next body hpayload => exact absurd hpayload (hbody body)
      · rfl
    simp only [hdataset, ← hfound, Option.bind_some, hnone, List.map_append, true_and]
    rfl
  | @notFound r hdataset hnone =>
    obtain ⟨hfound, hmessages⟩ := hnone.unique (dataset_datasetEntry entries r)
    simp only [hdataset, ← hfound, Option.bind_none, List.map_append, ← hmessages, true_and]
    rfl

/-- A reference without an input is reported as often as it is made. -/
example :
    let reference := fun name => (Deferred.target (.named name)).encode
    let query := "select * from " ++ reference "u" ++ " join " ++ reference "v" ++ reference "v"
    let entries := Entry.ofRegistrations {}
      [{ filePath := "t.sqlx", name := "t", payload := .table { query := query } }]
    let test : UnitTest :=
      { filePath := "t_test.sqlx", name := "t_test", dataset := some (.named "t")
        inputs := Dict.ofList [("u", "select 1")] }
    test.query entries =
      ("select * from (select 1) join ", [.noInput (.named "v"), .noInput (.named "v")]) := by
  decide +kernel

/-! ## §4 All tests -/

end UnitTest

namespace CompiledTest

theorem le_trans {a b c : CompiledTest} (hab : a.le b = true) (hbc : b.le c = true) :
    a.le c = true := by
  change ((compareLex (compareOn name) (compareOn fileName)) a c).isLE = true
  exact Std.TransCmp.isLE_trans hab hbc

theorem le_total (a b : CompiledTest) : (a.le b || b.le a) = true :=
  isLE_total (compareLex (compareOn name) (compareOn fileName)) a b

theorem name_le_of_le {a b : CompiledTest} (h : a.le b = true) : a.name ≤ b.name := by
  rw [le, Ordering.isLE_then_iff_or] at h
  apply (isLE_compareOfLessAndEq String.le_antisymm String.not_le String.le_total).1
  rcases h with hlt | ⟨heq, -⟩
  · exact Ordering.isLE_of_eq_lt hlt
  · exact Ordering.isLE_of_eq_eq heq

/-- Tests with different names are sorted by name, strictly. -/
theorem pairwise_mergeSort {tests : List CompiledTest} (h : (tests.map (·.name)).Nodup) :
    (tests.mergeSort CompiledTest.le).Pairwise fun a b => a.name < b.name := by
  have hsorted : (tests.mergeSort CompiledTest.le).Pairwise fun a b => a.le b = true := by
    apply List.pairwise_mergeSort
    · intro a b c
      exact le_trans
    · exact le_total
  -- The file is compared only where the names are the same, and no two names are.
  have hnodup : ((tests.mergeSort CompiledTest.le).map (·.name)).Nodup :=
    (((List.mergeSort_perm tests CompiledTest.le).map _).nodup_iff).2 h
  rw [List.Nodup, List.pairwise_map] at hnodup
  apply (hsorted.and hnodup).imp
  intro a b hab
  by_contra hlt
  exact hab.2 (String.le_antisymm (name_le_of_le hab.1) (String.not_lt.1 hlt))

end CompiledTest

namespace UnitTest

/-- What becomes of a declaration: the finished test, if it is kept, and what is said about its
file. -/
structure Outcome where
  kept : Option CompiledTest
  messages : List FileMessage

/-- What becomes of a declaration that stands after others. -/
inductive Concludes (entries : List Entry) (before : List UnitTest) (test : UnitTest) :
    Outcome → Prop
  | repeated (hname : test.name ∈ before.map (·.name)) :
      Concludes entries before test
        ⟨none, [⟨test.filePath, "Duplicate test name detected: \"" ++ test.name ++ "\""⟩]⟩
  | first {query : String} {messages : List String} (hname : test.name ∉ before.map (·.name))
      (hquery : Tested entries test query messages) :
      Concludes entries before test
        { kept := some
            { name := test.name, fileName := test.filePath, testQuery := query
              expectedOutputQuery := test.expectedQuery }
          messages := messages.map fun message => ⟨test.filePath, message⟩ }

theorem names_finishAll (entries : List Entry) (seen : List String) (tests : List UnitTest) :
    ((finishAll entries seen tests).1.map (·.name)).Nodup ∧
      ∀ name ∈ (finishAll entries seen tests).1.map (·.name), name ∉ seen := by
  -- The names that have been seen grow with every test that is kept.
  induction tests generalizing seen with
  | nil => exact ⟨List.nodup_nil, fun _ h => absurd h List.not_mem_nil⟩
  | cons test rest ih =>
    rw [finishAll]
    split
    · exact ih seen
    · next hfresh =>
      obtain ⟨hnodup, hnew⟩ := ih (test.name :: seen)
      have hhead : (test.finish entries).1.name = test.name := rfl
      simp only [List.map_cons, hhead]
      constructor
      · rw [List.nodup_cons]
        refine ⟨?_, hnodup⟩
        intro hmem
        exact hnew _ hmem List.mem_cons_self
      · intro name hname
        rcases List.mem_cons.1 hname with rfl | hname
        · exact hfresh
        · intro hseen
          exact hnew name hname (List.mem_cons_of_mem _ hseen)

/-- The outcomes of declarations, after some others. -/
structure Outcomes (entries : List Entry) (before tests : List UnitTest)
    (outcomes : List Outcome) : Prop where
  length_eq : outcomes.length = tests.length
  concludes : ∀ i test, tests[i]? = some test →
    ∃ o, outcomes[i]? = some o ∧ Concludes entries (before ++ tests.take i) test o

theorem Outcomes.cons {entries : List Entry} {before rest : List UnitTest} {test : UnitTest}
    {o : Outcome} {outcomes : List Outcome} (ho : Concludes entries before test o)
    (h : Outcomes entries (before ++ [test]) rest outcomes) :
    Outcomes entries before (test :: rest) (o :: outcomes) where
  length_eq := by rw [List.length_cons, List.length_cons, h.length_eq]
  concludes := by
    intro i test' htest
    cases i with
    | zero =>
      obtain rfl : test = test' := by simpa using htest
      exact ⟨o, rfl, by simpa using ho⟩
    | succ i =>
      rw [List.getElem?_cons_succ] at htest
      simpa using h.concludes i test' htest

/-- Every declaration has its outcome, and what is found is put together of them. -/
theorem exists_outcomes (entries : List Entry) {before : List UnitTest} {seen : List String}
    (hseen : ∀ name, name ∈ seen ↔ name ∈ before.map (·.name)) (tests : List UnitTest) :
    ∃ outcomes, Outcomes entries before tests outcomes ∧
      finishAll entries seen tests =
        (outcomes.filterMap (·.kept), outcomes.flatMap (·.messages)) := by
  induction tests generalizing before seen with
  | nil => exact ⟨[], ⟨rfl, by simp⟩, rfl⟩
  | cons test rest ih =>
    -- The names before the next declaration are those before this one and its own.
    have hnext : ∀ name, name ∈ test.name :: seen ↔ name ∈ (before ++ [test]).map (·.name) := by
      intro name
      simp [hseen, or_comm]
    rw [finishAll]
    split
    · next hknown =>
      have hsame : ∀ name, name ∈ seen ↔ name ∈ (before ++ [test]).map (·.name) := by
        intro name
        rw [← hnext, List.mem_cons, or_iff_right_of_imp]
        intro hname
        exact hname ▸ hknown
      obtain ⟨outcomes, houtcomes, hfound⟩ := ih hsame
      have hrepeated := @Concludes.repeated entries before test ((hseen _).1 hknown)
      refine ⟨_, houtcomes.cons hrepeated, ?_⟩
      rw [hfound]
      rfl
    · next hfresh =>
      obtain ⟨outcomes, houtcomes, hfound⟩ := ih hnext
      have hfirst := Concludes.first ((hseen _).not.1 hfresh) (tested_query entries test)
      refine ⟨_, houtcomes.cons hfirst, ?_⟩
      rw [hfound]
      simp [finish]

/-- What becomes of unit tests.  Every declaration has its outcome: the first one under a name is
kept, with the query that the rules give, and a later one is reported.  The tests of a graph are
those that are kept, strictly in the order of their names, and what is said is what the outcomes
say, from the first declaration to the last. -/
theorem finishAll_outcomes (entries : List Entry) (tests : List UnitTest) :
    ∃ outcomes, Outcomes entries [] tests outcomes ∧
      (finishAll entries [] tests).2 = outcomes.flatMap (·.messages) ∧
      ((finishAll entries [] tests).1.mergeSort CompiledTest.le).Perm
        (outcomes.filterMap (·.kept)) ∧
      ((finishAll entries [] tests).1.mergeSort CompiledTest.le).Pairwise
        (fun a b => a.name < b.name) ∧
      ∀ s : Session, s.entries = entries → s.tests = tests →
        s.compile.tests = (finishAll entries [] tests).1.mergeSort CompiledTest.le ∧
        s.compile.graphErrors.compilationErrors =
          s.compilationErrors ++ outcomes.flatMap (·.messages) := by
  obtain ⟨outcomes, houtcomes, hfound⟩ := @exists_outcomes entries [] [] (by simp) tests
  have hmessages : (finishAll entries [] tests).2 = outcomes.flatMap (·.messages) :=
    congrArg Prod.snd hfound
  refine ⟨outcomes, houtcomes, hmessages, ?_, ?_, ?_⟩
  · rw [hfound]
    exact List.mergeSort_perm _ _
  · exact CompiledTest.pairwise_mergeSort (names_finishAll entries [] tests).1
  · intro s hentries htests
    subst hentries htests
    refine ⟨rfl, ?_⟩
    rw [← hmessages]
    rfl

end UnitTest

end SqlWorkflow
