import SqlWorkflow.Template.Evaluate

/-!
# Engines

Whoever evaluates files runs their templates through an engine.  What a template does besides
writing text it does through the functions, filters and methods of its environment, and the engine
passes along the state that these keep.
-/

namespace SqlWorkflow.Template

/-- What runs templates. -/
structure Engine where
  /-- Runs a template file with some values, and gives what it writes and the state of the host. -/
  render {σ : Type} (env : Environment σ) (fuel : Option Nat) (file source : String)
    (values : List (String × Value)) (host : σ) : Except Fault (String × σ)

/-- The engine that reads a template and follows its tree. -/
def Engine.own : Engine := ⟨Template.render⟩

end SqlWorkflow.Template
