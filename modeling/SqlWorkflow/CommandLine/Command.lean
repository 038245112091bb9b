import SqlWorkflow.CommandLine.Grammar
import SqlWorkflow.Decimal.Numeral
import SqlWorkflow.Evaluation.Binding

/-!
# Commands

What the program can be asked to do: compile a project, validate its schedules or its credentials,
and answer one request as a worker.
-/

namespace SqlWorkflow.CommandLine

/-- What is asked of a compile. -/
structure CompileOptions where
  json : Bool := false
  schemaSuffix : Option String := none
  /-- JSON text with variables. -/
  vars : Option String := none
  timeoutSeconds : Nat := 300
  forceLegacy : Bool := false
  strict : Bool := false
  policy : UnsupportedPolicy := .warn
  deriving Repr, Inhabited

/-- What the program is asked to do. -/
inductive Action where
  | compile (options : CompileOptions)
  | validateSchedules (file : Option String)
  | validateCredentials (file : Option String) (warehouse : String)
  | worker
  deriving Repr, Inhabited

/-- A whole command line. -/
structure Command where
  verbose : Bool := false
  projectFolder : String := "."
  action : Action
  deriving Repr, Inhabited

/-! ## §1 The grammar -/

/-- Any value will do. -/
def anyValue : OptionRole := .value fun _ => true

/-- The options that every command knows. -/
def globalOptions : List OptionSpec :=
  [ { name := "verbose", letter := some 'v' },
    { name := "project-dir", letter := some 'p', role := anyValue },
    { name := "help", letter := some 'h', role := .help } ]

/-- A whole number of 64 bits as text. -/
def seconds? (text : String) : Option Nat := Decimal.natural? (Nat.pow 2 64) text.toList

/-- The options of a compile. -/
def compileOptions : List OptionSpec :=
  [ { name := "json" },
    { name := "schema-suffix", role := anyValue },
    { name := "vars", role := anyValue },
    { name := "timeout-secs", role := .value fun s => (seconds? s).isSome },
    { name := "legacy-entry-points" },
    { name := "strict-entry-points" },
    { name := "unsupported-capabilities",
      role := .value fun s => (UnsupportedPolicy.ofName? s).isSome } ]

/-- The option that names a warehouse. -/
def warehouseOption : OptionSpec :=
  { name := "warehouse", letter := some 'w', role := anyValue }

/-- The grammar of the program's command line. -/
def grammar : CommandSpec :=
  .command "dataforge"
    (globalOptions ++ [{ name := "version", letter := some 'V', role := .version }]) 0
    [ .command "compile" (globalOptions ++ compileOptions) 0 [],
      .command "validate" globalOptions 0
        [ .command "schedules" globalOptions 1 [],
          .command "credentials" (globalOptions ++ [warehouseOption]) 1 [] ],
      .command "worker" globalOptions 0 [] ]

/-! ## §2 Meaning -/

/-- The options of a compile that were given. -/
def compileOptionsOf (g : Given) : CompileOptions :=
  { json := g.has "json"
    schemaSuffix := g.value? "schema-suffix"
    vars := g.value? "vars"
    timeoutSeconds := ((g.value? "timeout-secs").bind seconds?).getD 300
    forceLegacy := g.has "legacy-entry-points"
    strict := g.has "strict-entry-points"
    policy := ((g.value? "unsupported-capabilities").bind UnsupportedPolicy.ofName?).getD .warn }

/-- The action that the innermost command asks for. -/
def actionOf (g : Given) : Action :=
  match g.command with
  | "compile" => .compile (compileOptionsOf g)
  | "schedules" => .validateSchedules g.operands.head?
  | "credentials" =>
    .validateCredentials g.operands.head? ((g.value? "warehouse").getD "bigquery")
  | _ => .worker

/-- The command that arguments ask for.  The innermost command that names a project folder wins,
and `folder` counts if none does. -/
def Command.ofArguments (folder : Option String) (args : List String) : Except Stop Command := do
  let given ← read grammar { command := grammar.name } none false args
  let innermost := given.getLast?.getD default
  return {
    verbose := given.any fun g => g.has "verbose"
    projectFolder :=
      ((given.reverse.findSome? fun g => g.value? "project-dir").or folder).getD "."
    action := actionOf innermost }

end SqlWorkflow.CommandLine
