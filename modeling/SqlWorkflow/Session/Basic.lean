import SqlWorkflow.Session.Expand
import SqlWorkflow.Session.Tests

/-!
# Sessions

A session collects what the evaluation of all files of a project has to say, in the order in which
it is said.  Nothing is resolved before everything has been said; then the session is compiled into
a graph.  Compiling never fails: what is wrong becomes part of the graph.
-/

namespace SqlWorkflow

/-- Everything that the files of a project have said. -/
structure Session where
  config : ProjectConfig
  coreVersion : String
  registrations : List Registration := []
  tests : List UnitTest := []
  compilationErrors : List FileMessage := []
  warnings : List FileMessage := []
  deriving Repr, Inhabited

namespace Session

/-- The session with an action. -/
def register (s : Session) (r : Registration) : Session :=
  { s with registrations := s.registrations ++ [r] }

/-- The session with a unit test. -/
def registerTest (s : Session) (t : UnitTest) : Session := { s with tests := s.tests ++ [t] }

/-- The session with an error of a file. -/
def compileError (s : Session) (fileName message : String) : Session :=
  { s with compilationErrors := s.compilationErrors ++ [⟨fileName, message⟩] }

/-- The session with a warning about a file. -/
def warn (s : Session) (fileName message : String) : Session :=
  { s with warnings := s.warnings ++ [⟨fileName, message⟩] }

/-- The entries of a session. -/
def entries (s : Session) : List Entry := Entry.ofRegistrations s.config s.registrations

/-- Everything that is wrong with a set of entries. -/
def findings (entries : List Entry) : List Finding :=
  Entry.keyFindings entries ++ Entry.componentFindings entries ++
    Entry.duplicateFindings entries ++ entries.flatMap (Entry.referenceFindings entries) ++
    Entry.cycleFindings entries ++ Entry.outputFindings entries

/-- The finished actions of a set of entries. -/
def actions (config : ProjectConfig) (entries : List Entry) : List Action :=
  entries.zipIdx.map fun (e, i) => e.finish config entries i

/-- The graph of a session. -/
def compile (s : Session) : CompiledGraph :=
  let entries := s.entries
  let (tests, problems) := UnitTest.finishAll entries [] s.tests
  CompiledGraph.assemble s.coreVersion s.config (actions s.config entries) tests
    { compilationErrors := s.compilationErrors ++ problems
      validationErrors := (findings entries).map Finding.toError
      warnings := s.warnings }

end Session

end SqlWorkflow
