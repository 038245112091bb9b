import SqlWorkflow.Evaluation.Describe
import SqlWorkflow.Sql.Program
import SqlWorkflow.Template.Evaluate

/-!
# The progress of an evaluation

While a file is evaluated, the actions that it describes are drafts, the unit tests that it
describes may still change, and what it warns about and the parts of its action are collected.
Templates hold numbered handles of these things.
-/

namespace SqlWorkflow.Evaluation

open Template

/-- An action while its file is evaluated. -/
structure ActionContext where
  draft : Draft
  /-- Is it a copy that is described once more, for the query of new rows only?  Warnings about
  it are dropped. -/
  incremental : Bool := false
  deriving Repr, Inhabited

/-- What a handle in a template stands for. -/
inductive HostObject where
  /-- An action that a script declared, by the number of its context. -/
  | action (context : Nat)
  /-- The context of an action, as a query that is a function gets it. -/
  | context (context : Nat)
  /-- A unit test that a script declared, by its number. -/
  | test (index : Nat)
  deriving DecidableEq, Repr, Inhabited

/-- How far the evaluation of a file has come. -/
structure Progress where
  /-- Each warning once, in the order in which they arose. -/
  warnings : List String := []
  contexts : Array ActionContext := #[]
  tests : Array UnitTest := #[]
  objects : Array HostObject := #[]
  /-- The texts of the parts of the file's action. -/
  parts : List (Sql.Part × String) := []
  deriving Repr, Inhabited

/-- A step of the evaluation of a file. -/
abbrev Host (α : Type) := Eval Progress α

namespace Host

variable {α : Type}

/-- The progress so far. -/
def progress : Host Progress := do return (← get).host

/-- Changes the progress. -/
def advance (change : Progress → Progress) : Host Unit :=
  modify fun m => { m with host := change m.host }

/-- Something that may be refused. -/
def lift (x : Except CallError α) : Host α :=
  match x with
  | .ok a => pure a
  | .error e => Eval.fail e.cause

/-- Gives a warning, unless it was given already. -/
def warn (message : String) : Host Unit :=
  advance fun p =>
    if p.warnings.contains message then p else { p with warnings := p.warnings ++ [message] }

/-- The context with a number. -/
def context (index : Nat) : Host ActionContext := do
  return (← progress).contexts[index]?.getD default

/-- Describes the action of a context. -/
def describe (index : Nat) (x : Act α) : Host α := do
  let ctx ← context index
  let (a, draft) ← lift (x ctx.draft)
  advance fun p => { p with contexts := p.contexts.setIfInBounds index { ctx with draft } }
  return a

/-- A new context. -/
def newContext (ctx : ActionContext) : Host Nat := do
  let index := (← progress).contexts.size
  advance fun p => { p with contexts := p.contexts.push ctx }
  return index

/-- A handle of an object, as templates hold it. -/
def newHandle (object : HostObject) (label : String) : Host Value := do
  let id := (← progress).objects.size
  advance fun p => { p with objects := p.objects.push object }
  return .handle { id, label }

/-- Warns or fails because of a binding that an action does not support. -/
def unsupported (policy : UnsupportedPolicy) (ctx : ActionContext) (b : Binding) : Host Value :=
  match policy with
  | .silent => pure nothing
  | .warn => do
    let kind := ctx.draft.kind.name
    if !ctx.incremental then
      warn (b.name ++ "() is not available in " ++ kind ++ " actions and was ignored")
    return nothing
  | .error => Eval.fail (CallError.unsupported b ctx.draft.kind).cause

/-- Calls a binding for the action of a context. -/
def call (policy : UnsupportedPolicy) (index : Nat) (b : Binding) (args : List Value) :
    Host Value := do
  let ctx ← context index
  if ctx.draft.kind.supports b then
    describe index (Evaluation.describe ctx.incremental b args)
  else unsupported policy ctx b

end Host

end SqlWorkflow.Evaluation
