import SqlWorkflow.Evaluation.Run
import SqlWorkflow.Proofs.Template.Agreement

/-!
# Comparing the environments of two evaluations

The environments of includes, scripts and actions are put together in one way.  Two of them agree
if they agree about warnings, about captured texts, about their own functions and about handles
(`Evaluator.environment_agrees`), whatever it is up to which the evaluations are compared.
-/

namespace SqlWorkflow.Evaluation

open Template
open Eval (Agrees)

variable {α : Type} {R : Comparison Progress Progress}

/-- The warnings with one more, unless it was given already. -/
def noted (message : String) (warnings : List String) : List String :=
  if warnings.contains message then warnings else warnings ++ [message]

theorem Host.warn_eq (message : String) : Host.warn message =
    Host.advance fun p => { p with warnings := noted message p.warnings } := by
  refine congrArg Host.advance (funext fun p => ?_)
  unfold noted
  split
  · rfl
  · rfl

theorem Host.lift_agrees (x : Except CallError α) : Agrees R (lift x) (lift x) := by
  cases x with
  | ok a => exact .pure a
  | error e => exact .fail _

/-- What every file can do, apart from its own functions, keeps related progress related. -/
structure Common (R : Comparison Progress Progress) : Prop where
  warn (message : String) : Agrees R (Host.warn message) (Host.warn message)
  capture (entry : Sql.Part × String) :
    Agrees R (Host.advance fun p => { p with parts := p.parts ++ [entry] })
      (Host.advance fun p => { p with parts := p.parts ++ [entry] })

namespace Common

variable (h : Common R)
include h

theorem helper (vars : Dict String) (helper : Helper) (args : List Value) :
    Agrees R (helper.call vars args) (helper.call vars args) := by
  cases helper with
  | log => exact .bind (.lift _) fun _ => .pure _
  | fail => exact .bind (.lift _) fun _ => .fail _
  | warn => exact .bind (.lift _) fun message => (h.warn message).bind fun _ => .pure _
  | «variable» | fromJson | toJson => exact .lift _

theorem capturePart (args : List Value) :
    Agrees R (Evaluator.capturePart args) (Evaluator.capturePart args) := by
  refine .bind (.lift _) fun (text, name) => ?_
  dsimp only
  split
  · exact (h.capture _).bind fun _ => .pure _
  · exact .fail _

end Common

namespace Evaluator

/-- The evaluator under another policy. -/
def withPolicy (e : Evaluator) (policy : UnsupportedPolicy) : Evaluator :=
  { e with options := { e.options with policy } }

/-- Environments agree, also under different policies, if their functions and methods do. -/
theorem environment_agrees (h : Common R) (e : Evaluator) {policy policy' : UnsupportedPolicy}
    (functions : List String) (capturing : Bool)
    {call call' : Calls Progress → String → List Value → Host Value}
    (hcall : ∀ {c d}, c.Agrees R d → ∀ name args,
      Agrees R (call c name args) (call' d name args))
    (hmethod : ∀ {c d}, c.Agrees R d → ∀ handle method args,
      Agrees R (callHandle policy c handle method args)
        (callHandle policy' d handle method args)) :
    ((e.withPolicy policy).environment functions capturing call).Agrees R
      ((e.withPolicy policy').environment functions capturing call') := by
  refine ⟨rfl, rfl, fun hcalls name args => ?_, fun name => ?_, hmethod⟩
  · -- Helpers are looked up before the functions of the action.
    dsimp only [environment]
    split
    · exact h.helper _ _ args
    · exact hcall hcalls name args
  · dsimp only [environment]
    split
    · exact .some fun args => h.helper _ .toJson args
    · split
      · exact .some h.capturePart
      · exact .none

end Evaluator

end SqlWorkflow.Evaluation
