import SqlWorkflow.Proofs.Evaluation.Environments

/-!
# Policies do not change results

A file may use bindings that its action does not support, and a policy says what happens then.  The
policies differ in the warnings that they give and in the files that they refuse, but in nothing
else that a file gives (`evaluate_policies`).

- **§1** Progress that is the same up to its warnings, and what is known about two policies that
  are compared.
- **§2**, **§3**, **§4** Every step of an evaluation agrees under the two policies: what is done to
  actions, what declares them, and the methods of handles.
- **§5** So do the environments.
- **§6** So do files as a whole, and the three policies are compared.
-/

namespace SqlWorkflow.Evaluation

open Template
open Eval (Agrees)

/-! ## §1 Comparing policies -/

theorem subset_noted (message : String) (warnings : List String) :
    warnings ⊆ noted message warnings := by
  unfold noted
  split
  · exact List.Subset.refl _
  · exact List.subset_append_left _ _

theorem mem_noted (message : String) (warnings : List String) :
    message ∈ noted message warnings := by
  unfold noted
  split
  next h => exact List.contains_iff_mem.1 h
  next => exact List.mem_append_right _ (List.mem_singleton_self message)

theorem noted_subset {message : String} {warnings all : List String} (hsubset : warnings ⊆ all)
    (hmem : message ∈ all) : noted message warnings ⊆ all := by
  unfold noted
  split
  · exact hsubset
  · exact List.append_subset.2 ⟨hsubset, List.cons_subset.2 ⟨hmem, List.nil_subset _⟩⟩

/-- Progress that differs in its warnings alone, which are related. -/
inductive Progress.Alike (V : List String → List String → Prop) : Progress → Progress → Prop
  | intro {p : Progress} {warnings : List String} (h : V p.warnings warnings) :
      Alike V p { p with warnings }

/-- Evaluations are compared up to warnings. -/
def warned (V : List String → List String → Prop) (lenient : Prop) :
    Comparison Progress Progress where
  related := Progress.Alike V
  lenient

/-- What is known about two policies that are compared: the warnings that they give are related,
and a use of a binding that is not supported agrees under both. -/
structure Comparable (V : List String → List String → Prop) (lenient : Prop)
    (policy policy' : UnsupportedPolicy) : Prop where
  noWarnings : V [] []
  noted {warnings warnings' : List String} (message : String) (h : V warnings warnings') :
    V (noted message warnings) (noted message warnings')
  unsupported (ctx : ActionContext) (b : Binding) : Agrees (warned V lenient)
    (Host.unsupported policy ctx b) (Host.unsupported policy' ctx b)

variable {α β : Type} {V : List String → List String → Prop} {lenient : Prop}
  {policy policy' : UnsupportedPolicy}

namespace Comparable

/-- Under one of these policies a warning is given in addition, and nothing else happens. -/
theorem silent_warn : Comparable (· ⊆ ·) False .silent .warn where
  noWarnings := List.Subset.refl _
  noted message h := noted_subset (List.Subset.trans h (subset_noted _ _)) (mem_noted _ _)
  unsupported ctx b := by
    dsimp only [Host.unsupported]
    split
    · rw [Host.warn_eq]
      rintro m _ ⟨⟨hm⟩⟩
      exact .ok ⟨⟨List.Subset.trans hm (subset_noted _ _)⟩⟩
    · exact .pure _

/-- A file that is not refused uses no binding that its action does not support. -/
theorem error (policy : UnsupportedPolicy) : Comparable Eq True .error policy where
  noWarnings := rfl
  noted _ h := congrArg _ h
  -- The strictest policy refuses every such use.
  unsupported _ _ := fun _ _ _ => .excused trivial _ _

end Comparable

/-! ## §2 Describing actions -/

namespace Host

theorem advance_agrees {change change' : Progress → Progress}
    (h : ∀ p q, Progress.Alike V p q → Progress.Alike V (change p) (change' q)) :
    Agrees (warned V lenient) (advance change) (advance change') := by
  refine .modify ?_
  rintro m _ ⟨hm⟩
  exact ⟨h _ _ hm⟩

/-- What is done with the present progress agrees if it does so for progress that differs in its
warnings. -/
theorem progress_bind {f g : Progress → Host α}
    (h : ∀ p q, Progress.Alike V p q → Agrees (warned V lenient) (f p) (g q)) :
    Agrees (warned V lenient) (progress >>= f) (progress >>= g) :=
  .get_bind fun _ _ ⟨hm⟩ => h _ _ hm

theorem context_agrees (index : Nat) :
    Agrees (warned V lenient) (context index) (context index) := by
  refine progress_bind ?_
  rintro p _ ⟨-⟩
  exact .pure _

theorem describe_agrees (index : Nat) (x : Act α) :
    Agrees (warned V lenient) (describe index x) (describe index x) := by
  refine (context_agrees index).bind fun ctx => (lift_agrees _).bind fun (a, draft) =>
    (advance_agrees ?_).bind fun _ => .pure a
  rintro p _ ⟨h⟩
  exact ⟨h⟩

end Host

open Host

namespace Comparable

variable (h : Comparable V lenient policy policy')
include h

theorem warn (message : String) :
    Agrees (warned V lenient) (Host.warn message) (Host.warn message) := by
  rw [warn_eq]
  refine advance_agrees ?_
  rintro p _ ⟨hwarnings⟩
  exact ⟨h.noted message hwarnings⟩

theorem call (index : Nat) (b : Binding) (args : List Value) :
    Agrees (warned V lenient) (Host.call policy index b args) (Host.call policy' index b args) :=
  (context_agrees index).bind fun ctx => .ite (describe_agrees index _) (h.unsupported ctx b)

end Comparable

/-! ## §3 Declarations -/

theorem Host.newContext_agrees (ctx : ActionContext) :
    Agrees (warned V lenient) (newContext ctx) (newContext ctx) := by
  refine progress_bind ?_
  rintro p _ ⟨-⟩
  refine (advance_agrees ?_).bind fun _ => .pure _
  rintro q _ ⟨h⟩
  exact ⟨h⟩

theorem Host.newHandle_agrees (object : HostObject) (label : String) :
    Agrees (warned V lenient) (newHandle object label) (newHandle object label) := by
  refine progress_bind ?_
  rintro p _ ⟨-⟩
  refine (advance_agrees ?_).bind fun _ => .pure _
  rintro q _ ⟨h⟩
  exact ⟨h⟩

theorem takeUp_agrees (draft : Draft) : Agrees (warned V lenient) (takeUp draft) (takeUp draft) :=
  (newContext_agrees _).bind fun _ => newHandle_agrees _ _

/-- A declaration does not depend on the policy of its script. -/
theorem declareBy_agrees (s : ScriptScope) (policy : UnsupportedPolicy) (d : Declarator)
    (args : List Value) :
    Agrees (warned V lenient) (declareBy s d args) (declareBy { s with policy } d args) := by
  cases d with
  | publish | operate | assert => exact (lift_agrees _).bind takeUp_agrees
  | declare =>
    exact .bind (.lift _) fun spec => (lift_agrees _).bind fun (name, config) =>
      (lift_agrees _).bind takeUp_agrees
  | notebook => exact .bind (.lift _) fun (spec, file) => (lift_agrees _).bind takeUp_agrees
  | test =>
    refine .bind (.lift _) fun spec => (lift_agrees _).bind fun test => progress_bind ?_
    rintro p _ ⟨-⟩
    refine (advance_agrees ?_).bind fun _ => newHandle_agrees _ _
    rintro q _ ⟨h⟩
    exact ⟨h⟩

/-! ## §4 Methods -/

section Methods

variable {c d : Calls Progress} (hcalls : c.Agrees (warned V lenient) d)
include hcalls

theorem contextual_agrees (index : Nat) (v : Value) :
    Agrees (warned V lenient) (contextual c index v) (contextual d index v) := by
  unfold contextual
  split
  case h_5 =>
    exact (context_agrees index).bind fun ctx => (newHandle_agrees _ _).bind fun handle =>
      hcalls.call v [handle]
  all_goals exact .pure v

theorem contextualTexts_agrees (index : Nat) (args : List Value) :
    Agrees (warned V lenient) (contextualTexts c index args) (contextualTexts d index args) := by
  induction args with
  | nil => exact .pure []
  | cons v rest ih =>
    exact (contextual_agrees hcalls index v).bind fun v => (lift_agrees _).bind fun texts =>
      ih.bind fun _ => .pure _

theorem queryMethod_agrees (index : Nat) (args : List Value) :
    Agrees (warned V lenient) (queryMethod c index args) (queryMethod d index args) := by
  refine (context_agrees index).bind fun ctx => .ite (.fail_bind _ _ _) ?_
  cases args with
  | nil => exact lift_agrees _
  | cons v rest =>
    refine (contextual_agrees hcalls index v).bind fun first => (lift_agrees _).bind fun queries =>
      (describe_agrees index _).bind fun _ => (context_agrees index).bind fun ctx =>
        .ite ?_ (.pure ())
    -- An incremental table is given a query of new rows as well, in a context of its own.
    exact (newContext_agrees _).bind fun copy =>
      (contextual_agrees hcalls copy v).bind fun second =>
        (lift_agrees _).bind fun queries => describe_agrees index _

theorem actionMethod_agrees (index : Nat) (method : String) (args : List Value) :
    Agrees (warned V lenient) (actionMethod c index method args)
      (actionMethod d index method args) := by
  have htexts (x : List String → Act Unit) : Agrees (warned V lenient)
      (contextualTexts c index args >>= fun texts => Host.describe index (x texts))
      (contextualTexts d index args >>= fun texts => Host.describe index (x texts)) :=
    (contextualTexts_agrees hcalls index args).bind fun texts => describe_agrees index _
  unfold actionMethod
  extract_lets on text
  split
  case h_1 => exact queryMethod_agrees hcalls index args
  case h_2 =>
    exact (context_agrees index).bind fun ctx => .ite (.fail_bind _ _ _) (htexts _)
  case h_12 | h_13 | h_14 => exact htexts _
  case h_18 => exact (context_agrees index).bind fun ctx => .fail _
  -- The other methods read their arguments themselves.
  all_goals exact describe_agrees index _

theorem queryText_agrees (what : String) (v : Option Value) :
    Agrees (warned V lenient) (queryText c what v) (queryText d what v) := by
  unfold queryText
  split
  · exact lift_agrees _
  · dsimp only
    split
    · exact .pure _
    · exact (hcalls.call _ []).bind fun rendered => .pure _

theorem testChange_agrees (method : String) (args : List Value) :
    Agrees (warned V lenient) (testChange c method args) (testChange d method args) := by
  unfold testChange
  split
  · exact (lift_agrees _).bind fun reference => .pure _
  · exact (lift_agrees _).bind fun name => (queryText_agrees hcalls _ _).bind fun query => .pure _
  · exact (queryText_agrees hcalls _ _).bind fun query => .pure _
  · exact (lift_agrees _).bind fun config => .pure _
  · exact .fail _

theorem testMethod_agrees (index : Nat) (method : String) (args : List Value) :
    Agrees (warned V lenient) (testMethod c index method args)
      (testMethod d index method args) := by
  refine (testChange_agrees hcalls method args).bind fun change => progress_bind ?_
  rintro p _ ⟨-⟩
  refine (lift_agrees _).bind fun test => advance_agrees ?_
  rintro q _ ⟨h⟩
  exact ⟨h⟩

theorem Comparable.callHandle (h : Comparable V lenient policy policy') (handle : Handle)
    (method : String) (args : List Value) :
    Agrees (warned V lenient) (callHandle policy c handle method args)
      (callHandle policy' d handle method args) := by
  refine progress_bind ?_
  rintro p _ ⟨-⟩
  dsimp only
  split
  · exact (actionMethod_agrees hcalls _ method args).bind fun _ => .pure _
  · exact (testMethod_agrees hcalls _ method args).bind fun _ => .pure _
  · split
    · exact h.call _ _ args
    · exact .fail _
  · exact .fail _

end Methods

/-! ## §5 Environments -/

namespace Comparable

variable (h : Comparable V lenient policy policy')
include h

theorem common : Common (warned V lenient) where
  warn := h.warn
  capture _ := advance_agrees fun _ _ ⟨hwarnings⟩ => ⟨hwarnings⟩

variable (e : Evaluator)

theorem environment (functions : List String) (capturing : Bool)
    {call call' : Calls Progress → String → List Value → Host Value}
    (hcall : ∀ {c d}, c.Agrees (warned V lenient) d → ∀ name args,
      Agrees (warned V lenient) (call c name args) (call' d name args)) :
    ((e.withPolicy policy).environment functions capturing call).Agrees (warned V lenient)
      ((e.withPolicy policy').environment functions capturing call') :=
  Evaluator.environment_agrees h.common e functions capturing hcall
    fun hcalls => callHandle hcalls h

theorem plainEnvironment (capturing : Bool) :
    ((e.withPolicy policy).plainEnvironment capturing).Agrees (warned V lenient)
      ((e.withPolicy policy').plainEnvironment capturing) :=
  h.environment e [] capturing fun _ _ _ => .fail _

theorem scriptEnvironment (filePath : String) :
    ((e.withPolicy policy).scriptEnvironment filePath).Agrees (warned V lenient)
      ((e.withPolicy policy').scriptEnvironment filePath) := by
  refine h.environment e _ false fun _ name args => ?_
  split
  · exact declareBy_agrees _ policy' _ args
  · exact .fail _

theorem actionEnvironment :
    (e.withPolicy policy).actionEnvironment.Agrees (warned V lenient)
      (e.withPolicy policy').actionEnvironment := by
  refine h.environment e _ true fun _ name args => ?_
  split
  · exact h.call 0 _ args
  · exact .fail _

end Comparable

/-! ## §6 Files -/

/-- Two outcomes of which successes are related and failures are the same, as far as they are
compared. -/
inductive SameEvaluation (lenient : Prop) (S : α → β → Prop) :
    Except EvaluationError α → Except EvaluationError β → Prop
  | ok {a : α} {b : β} (h : S a b) : SameEvaluation lenient S (.ok a) (.ok b)
  | error (e : EvaluationError) : SameEvaluation lenient S (.error e) (.error e)
  | excused (h : lenient) (e : EvaluationError) (y : Except EvaluationError β) :
      SameEvaluation lenient S (.error e) y

namespace SameEvaluation

variable {α' β' : Type} {S : α → β → Prop} {S' : α' → β' → Prop}

protected theorem bind {x : Except EvaluationError α} {y : Except EvaluationError β}
    {f : α → Except EvaluationError α'} {g : β → Except EvaluationError β'}
    (h : SameEvaluation lenient S x y)
    (hf : ∀ a b, S a b → SameEvaluation lenient S' (f a) (g b)) :
    SameEvaluation lenient S' (x >>= f) (y >>= g) := by
  cases h with
  | ok h => exact hf _ _ h
  | error e => exact .error e
  | excused h => exact .excused h _ _

/-- What does not depend on the policy is done once. -/
theorem same_bind (x : Except EvaluationError α) {f : α → Except EvaluationError α'}
    {g : α → Except EvaluationError β'} (hf : ∀ a, SameEvaluation lenient S' (f a) (g a)) :
    SameEvaluation lenient S' (x >>= f) (x >>= g) := by
  cases x with
  | ok a => exact hf a
  | error e => exact .error e

end SameEvaluation

/-- Outputs that differ in their warnings alone, which are related. -/
inductive FileOutput.Alike (V : List String → List String → Prop) : FileOutput → FileOutput → Prop
  | intro {output : FileOutput} {warnings : List String} (h : V output.warnings warnings) :
      Alike V output { output with warnings }

namespace Comparable

variable (h : Comparable V lenient policy policy') (e : Evaluator) {engine : Engine}
  (hengine : engine.Uniform)

include hengine

theorem run {env env' : Environment Progress} (henv : env.Agrees (warned V lenient) env')
    (file source : String) (values : List (String × Value)) {p q : Progress}
    (hstart : Progress.Alike V p q) :
    SameEvaluation lenient (Progress.Alike V)
      ((e.withPolicy policy).run env file source values p engine)
      ((e.withPolicy policy').run env' file source values q engine) := by
  have hsame := hengine.agrees henv e.options.fuel file source values hstart
  unfold Evaluator.run
  dsimp only [Evaluator.withPolicy]
  generalize engine.render env _ _ _ _ _ = first,
    engine.render env' _ _ _ _ _ = second at hsame ⊢
  cases hsame with
  | ok h => exact .ok h
  | error fault => exact .error _
  | excused h => exact .excused h _ _

include h

theorem runScript (filePath source : String) :
    SameEvaluation lenient (FileOutput.Alike V)
      ((e.withPolicy policy).runScript filePath source engine)
      ((e.withPolicy policy').runScript filePath source engine) := by
  refine .bind (run e hengine (h.scriptEnvironment e filePath) _ _ _ (.intro h.noWarnings)) ?_
  rintro p _ ⟨hwarnings⟩
  exact .same_bind _ fun registrations => .ok ⟨hwarnings⟩

theorem withIncrementalQuery (program : Sql.ActionProgram) (draft : Draft) :
    SameEvaluation lenient Eq
      ((e.withPolicy policy).withIncrementalQuery program draft engine)
      ((e.withPolicy policy').withIncrementalQuery program draft engine) := by
  unfold Evaluator.withIncrementalQuery
  split
  · refine .bind (run e hengine (h.actionEnvironment e) _ _ _ (.intro h.noWarnings)) ?_
    rintro p _ ⟨-⟩
    exact .ok rfl
  · exact .ok rfl

theorem runAction (program : Sql.ActionProgram) (kind : ActionKind) :
    SameEvaluation lenient (FileOutput.Alike V)
      ((e.withPolicy policy).runAction program kind engine)
      ((e.withPolicy policy').runAction program kind engine) := by
  refine .same_bind _ fun start =>
    .bind (run e hengine (h.actionEnvironment e) _ _ _ (.intro h.noWarnings)) ?_
  rintro p _ ⟨hwarnings⟩
  refine .bind (h.withIncrementalQuery e hengine program _) ?_
  rintro draft _ rfl
  exact .same_bind _ fun registration => .ok ⟨hwarnings⟩

theorem runTest (program : Sql.ActionProgram) :
    SameEvaluation lenient (FileOutput.Alike V)
      ((e.withPolicy policy).runTest program engine)
      ((e.withPolicy policy').runTest program engine) := by
  refine .same_bind _ fun start => ?_
  dsimp only
  -- With and without a configuration the template is run in the same way.
  split
  all_goals
    refine .same_bind _ fun test =>
      .bind (run e hengine (h.plainEnvironment e true) _ _ _ (.intro h.noWarnings)) ?_
    rintro p _ ⟨hwarnings⟩
    exact .ok ⟨hwarnings⟩

theorem evaluate (program : Sql.Program) :
    SameEvaluation lenient (FileOutput.Alike V)
      ((e.withPolicy policy).evaluate program engine)
      ((e.withPolicy policy').evaluate program engine) := by
  cases program with
  | script filePath source => exact h.runScript e hengine filePath source
  | action program =>
    dsimp only [Evaluator.evaluate]
    -- A unit test is the one type without a kind of action.
    split
    · exact h.runAction e hengine program _
    · exact h.runTest e hengine program

end Comparable

/-- Without warnings a file gives the same as with them, or fails in the same way; a file that the
strictest policy does not refuse gives the same under every policy.  So it is whatever engine runs
the template of the file. -/
theorem evaluate_policies {engine : Engine} (hengine : engine.Uniform) (e : Evaluator)
    (program : Sql.Program) :
    let under (policy : UnsupportedPolicy) := (e.withPolicy policy).evaluate program engine
    ((∃ silent warn, under .silent = .ok silent ∧ under .warn = .ok warn ∧
        silent.registrations = warn.registrations ∧ silent.tests = warn.tests ∧
        silent.warnings ⊆ warn.warnings) ∨
      ∃ error, under .silent = .error error ∧ under .warn = .error error) ∧
    ∀ output, under .error = .ok output → ∀ policy, under policy = .ok output := by
  intro under
  constructor
  · have hsame := Comparable.silent_warn.evaluate e hengine program
    change SameEvaluation _ _ (under .silent) (under .warn) at hsame
    generalize under .silent = first, under .warn = second at hsame ⊢
    cases hsame with
    | ok h =>
      obtain ⟨hwarnings⟩ := h
      exact .inl ⟨_, _, rfl, rfl, rfl, rfl, hwarnings⟩
    | error e => exact .inr ⟨e, rfl, rfl⟩
    | excused hlenient => exact hlenient.elim
  · intro output houtput policy
    have hsame := (Comparable.error policy).evaluate e hengine program
    change SameEvaluation _ _ (under .error) (under policy) at hsame
    rw [houtput] at hsame
    generalize under policy = second at hsame ⊢
    cases hsame with
    | ok h =>
      -- The outputs differ in their warnings alone, which are equal here.
      obtain ⟨rfl⟩ := h
      rfl

theorem evaluate_policies_select :
    let e : Evaluator := { project := { disk := { root := .folder [] }, path := "" } }
    ∃ program output, Sql.compile "t.sql" "SELECT 1" = .ok program ∧
      (e.withPolicy .error).evaluate program = .ok output ∧
      ∀ policy, (e.withPolicy policy).evaluate program = .ok output := by
  intro e
  have h : (do
      let program ← (Sql.compile "t.sql" "SELECT 1").toOption
      let _ ← ((e.withPolicy .error).evaluate program).toOption
      return ()) = some () := by decide +kernel
  obtain ⟨program, hcompile, h⟩ := exists_of_toOption_bind_eq_some h
  obtain ⟨output, houtput, -⟩ := exists_of_toOption_bind_eq_some h
  exact ⟨program, output, hcompile, houtput,
    (evaluate_policies Engine.uniform_own e program).2 output houtput⟩

/-- What the policies make of a table that says whether it has output. -/
example :
    let e : Evaluator := { project := { disk := { root := .folder [] }, path := "" } }
    (do
      let program ← (Sql.compile "t.sql" "SELECT 1$\x7bhasOutput(true)\x7d").toOption
      return [UnsupportedPolicy.silent, .warn, .error].map fun policy =>
        ((e.withPolicy policy).evaluate program).toOption.map (·.warnings)) =
      some [some [], some ["hasOutput() is not available in table actions and was ignored"],
        none] := by
  decide +kernel

end SqlWorkflow.Evaluation
