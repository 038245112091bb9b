import SqlWorkflow.Session.Finding

/-!
# Unit tests

A unit test runs the query of a dataset with every reference replaced by an input.  Its query can
be built only once all entries are known.
-/

namespace SqlWorkflow

/-- What is wrong with a unit test. -/
inductive TestProblem where
  | repeatedName (name : String)
  | noDataset
  | ambiguous (reference : TargetRef) (candidates : List Target)
  | incremental
  | notFound (reference : TargetRef)
  | noInput (reference : TargetRef)
  deriving DecidableEq, Repr, Inhabited

/-- The wording of a problem. -/
def TestProblem.message : TestProblem → String
  | .repeatedName name => "Duplicate test name detected: \"" ++ name ++ "\""
  | .noDataset => "Tests must operate upon a specified dataset."
  | .ambiguous reference candidates => ambiguousMessage reference candidates
  | .incremental => "Running tests on incremental datasets is not yet supported."
  | .notFound reference => "Dataset " ++ reference.readable ++ " could not be found."
  | .noInput reference =>
    "Input for dataset \"" ++ reference.readable ++ "\" has not been provided."

namespace UnitTest

/-- What stands for a marker in the tested query. -/
def fill (test : UnitTest) : Deferred → String
  | .target r =>
    match test.inputFor? r with
    | some input => "(" ++ input ++ ")"
    | none => ""
  | _ => ""

/-- The references of the tested query for which there is no input. -/
def missingInputs (test : UnitTest) (query : String) : List TestProblem :=
  (Deferred.markers query).filterMap fun
    | .target r => if (test.inputFor? r).isSome then none else some (.noInput r)
    | _ => none

/-- The entry that a test is about, and what is wrong with the reference to it.  Of several
candidates the first is taken. -/
def datasetEntry (entries : List Entry) (r : TargetRef) : Option Entry × List TestProblem :=
  match Entry.resolve entries r with
  | .found i => (entries[i]?, [])
  | .missing => (none, [])
  | .ambiguous positions =>
    (positions.head?.bind fun i => entries[i]?,
      [.ambiguous r (Entry.canonicalTargets entries positions)])

/-- What an entry has to say as a table. -/
def tableBody? (e : Entry) : Option TableBody :=
  match e.registration.payload with
  | .table body => some body
  | _ => none

/-- The query of a test, and what is wrong with it. -/
def query (entries : List Entry) (test : UnitTest) : String × List TestProblem :=
  match test.dataset with
  | none => ("", [.noDataset])
  | some r =>
    let (found, problems) := datasetEntry entries r
    match found.bind tableBody? with
    | some body =>
      if body.type = .incremental then ("", problems ++ [.incremental])
      else
        (Deferred.substitute test.fill body.query, problems ++ test.missingInputs body.query)
    | none => ("", problems ++ [.notFound r])

/-- The finished test, and what is wrong with it. -/
def finish (entries : List Entry) (test : UnitTest) : CompiledTest × List FileMessage :=
  let (testQuery, problems) := test.query entries
  ( { name := test.name, fileName := test.filePath, testQuery
      expectedOutputQuery := test.expectedQuery },
    problems.map fun p => ⟨test.filePath, p.message⟩ )

/-- The finished tests and everything that is wrong with them.  Of several tests with one name
only the first is kept; `seen` are the names of the tests before. -/
def finishAll (entries : List Entry) (seen : List String) :
    List UnitTest → List CompiledTest × List FileMessage
  | [] => ([], [])
  | test :: rest =>
    if test.name ∈ seen then
      let (tests, problems) := finishAll entries seen rest
      (tests, ⟨test.filePath, (TestProblem.repeatedName test.name).message⟩ :: problems)
    else
      let (first, firstProblems) := test.finish entries
      let (tests, problems) := finishAll entries (test.name :: seen) rest
      (first :: tests, firstProblems ++ problems)

end UnitTest

end SqlWorkflow
