import SqlWorkflow.Compile.Response
import SqlWorkflow.Decimal.Layout
import SqlWorkflow.Files.Disk
import SqlWorkflow.Graph.Encoding

/-!
# Hosts

A host has every request answered by a worker process of its own, which it stops if the answer
takes too long.  Whatever the worker does, the host comes to a graph or to an error: an answer that
can be read counts however the worker exits, and the exit status counts only if there is none.
-/

namespace SqlWorkflow

/-- How a worker process ends. -/
inductive WorkerRun where
  /-- The process could not be started. -/
  | notStarted (program : String) (e : AccessError)
  /-- The process did not end within a time in milliseconds, and was stopped. -/
  | stopped (limit : Nat)
  | exited (status : Nat) (output : String)
  deriving Repr, Inhabited

/-- Why a host has no graph. -/
inductive HostError where
  | timeout (limit : Nat)
  | spawn (program : String) (e : AccessError)
  /-- The worker failed without an answer. -/
  | crashed (status : Nat)
  /-- The worker ended well, but with something that is no answer. -/
  | malformed (e : DecodeError)
  | fatal (e : FatalError)
  /-- The answer holds no graph. -/
  | graph (e : DecodeError)
  deriving Repr, Inhabited

namespace HostError

/-- A time in milliseconds as a number of seconds. -/
def seconds (limit : Nat) : String :=
  if limit % 1000 = 0 then toString (limit / 1000)
  else Decimal.Layout.plain.write (Float.ofScientific limit true 3)

/-- The text of the error. -/
def message : HostError → String
  | .timeout limit => "[D010] Compilation timed out after " ++ seconds limit ++ "s"
  | .spawn program e => "[D011] Failed to start worker '" ++ program ++ "': " ++ e.message
  | .crashed status =>
    "[D012] Worker exited with exit status: " ++ toString status ++ " without a response"
  | .malformed e => "[D013] Malformed worker response: " ++ e.message .jsonText
  | .fatal e => e.message
  | .graph e => "JSON error: " ++ e.message .jsonText

end HostError

namespace WorkerRun

/-- The text of the graph that a worker answers with. -/
def encodedGraph : WorkerRun → Except HostError String
  | .notStarted program e => .error (.spawn program e)
  | .stopped limit => .error (.timeout limit)
  | .exited status output =>
    match CompileResponse.ofText output with
    | .ok (.success encodedGraph) => .ok encodedGraph
    | .ok (.failure e) => .error (.fatal e)
    | .error e => .error (if status = 0 then .malformed e else .crashed status)

/-- The graph that a worker answers with. -/
def graph (run : WorkerRun) : Except HostError CompiledGraph := do
  (CompiledGraph.ofText (← run.encodedGraph)).mapError .graph

end WorkerRun

end SqlWorkflow
