import SqlWorkflow.Evaluation.Run
import SqlWorkflow.Proofs.Evaluation.Calls
import SqlWorkflow.Proofs.Template.Agreement

/-!
# References that a file makes are dependencies

While the template of an action is run it calls `ref`, and each call denotes a marker for its
reference.  To speak about these calls, the run is traced.

- **§1** What a template can do to the progress of an evaluation.
- **§2** A traced run notes the calls of `ref` and is the same as the run otherwise
  (`traceTemplate_of_runTemplate`).
- **§3** Every reference that the run of an action's template makes is a dependency of the action
  (`evaluate_references`).  The query of new rows comes from a second run, on a copy of the draft
  which is then thrown away, and with it the dependencies that only this run finds.
-/

namespace SqlWorkflow.Evaluation

open Template

variable {α β : Type}

/-! ## §1 The progress of an evaluation -/

/-- The progress with the same handles as another one, in which the first action has come
further. -/
structure Progress.Grows (p q : Progress) : Prop where
  objects_eq : q.objects = p.objects
  context : ∀ ⦃ctx⦄, p.contexts[0]? = some ctx →
    ∃ ctx', q.contexts[0]? = some ctx' ∧ ctx.draft.Extends ctx'.draft

namespace Progress.Grows

theorem of_eq {p q : Progress} (hobjects : q.objects = p.objects)
    (hcontexts : q.contexts = p.contexts) : p.Grows q :=
  ⟨hobjects, fun ctx h => ⟨ctx, hcontexts ▸ h, .refl _⟩⟩

theorem refl (p : Progress) : p.Grows p := of_eq rfl rfl

theorem trans {p q r : Progress} (h : p.Grows q) (h' : q.Grows r) : p.Grows r := by
  refine ⟨h'.objects_eq.trans h.objects_eq, fun ctx hctx => ?_⟩
  obtain ⟨ctx', hctx', hextends⟩ := h.context hctx
  obtain ⟨ctx'', hctx'', hextends'⟩ := h'.context hctx'
  exact ⟨ctx'', hctx'', hextends.trans hextends'⟩

end Progress.Grows

/-- The progress grows if the step succeeds. -/
def Growing (x : Host α) : Prop :=
  ∀ ⦃m : Machine Progress⦄ ⦃a : α⦄ ⦃n : Machine Progress⦄, x m = .ok (a, n) → m.host.Grows n.host

/-- What a description that succeeds does to the action of its context. -/
theorem exists_of_describe_eq_ok {index : Nat} {x : Act α} {m n : Machine Progress} {a : α}
    (h : Host.describe index x m = .ok (a, n)) :
    let ctx := m.host.contexts[index]?.getD default
    ∃ draft, x ctx.draft = .ok (a, draft) ∧
      n.host =
        { m.host with contexts := m.host.contexts.setIfInBounds index { ctx with draft } } := by
  intro ctx
  obtain ⟨⟨⟨_, draft⟩, _⟩, hlift, h⟩ := exists_of_bind_eq_ok h
  cases h
  change Host.lift (x ctx.draft) m = _ at hlift
  cases hx : x ctx.draft with
  | error e =>
    rw [hx] at hlift
    cases hlift
  | ok result =>
    rw [hx] at hlift
    cases hlift
    exact ⟨draft, rfl, rfl⟩

namespace Growing

protected theorem pure (a : α) : Growing (pure a : Host α) := by
  rintro m _ _ ⟨⟩
  exact .refl _

protected theorem bind {x : Host α} {f : α → Host β} (hx : Growing x) (hf : ∀ a, Growing (f a)) :
    Growing (x >>= f) := by
  intro m b n h
  obtain ⟨⟨a, m'⟩, hfirst, hrest⟩ := exists_of_bind_eq_ok h
  exact (hx hfirst).trans (hf a hrest)

theorem fail (cause : Cause) : Growing (Eval.fail cause : Host α) := by
  rintro m _ _ ⟨⟩

theorem lift (x : Except Cause α) : Growing (Eval.lift x : Host α) := by
  cases x with
  | ok a => exact .pure a
  | error cause => exact fail cause

theorem advance {change : Progress → Progress} (h : ∀ p : Progress, p.Grows (change p)) :
    Growing (Host.advance change) := by
  rintro m _ _ ⟨⟩
  exact h m.host

theorem warn (message : String) : Growing (Host.warn message) := by
  refine advance fun p => ?_
  split
  · exact .refl p
  · exact .of_eq rfl rfl

theorem context (index : Nat) : Growing (Host.context index) := by
  rintro m _ _ ⟨⟩
  exact .refl _

theorem unsupported (policy : UnsupportedPolicy) (ctx : ActionContext) (b : Binding) :
    Growing (Host.unsupported policy ctx b) := by
  unfold Host.unsupported
  split
  · exact .pure _
  · dsimp only
    split
    · exact (warn _).bind fun _ => .pure _
    · exact .pure _
  · exact fail _

theorem describe {x : Act α} (hx : ActExtending x) : Growing (Host.describe 0 x) := by
  intro m a n h
  obtain ⟨draft, hdraft, hhost⟩ := exists_of_describe_eq_ok h
  refine hhost ▸ ⟨rfl, fun ctx hctx => ?_⟩
  obtain ⟨hsize, hget⟩ := Array.getElem?_eq_some_iff.1 hctx
  rw [hctx, Option.getD_some] at hdraft ⊢
  exact ⟨{ ctx with draft }, Array.getElem?_setIfInBounds_self_of_lt hsize, hx hdraft⟩

theorem call (policy : UnsupportedPolicy) (b : Binding) (args : List Value) :
    Growing (Host.call policy 0 b args) := by
  refine (context 0).bind fun ctx => ?_
  split
  · exact describe (ActExtending.describe _ b args)
  · exact unsupported policy ctx b

theorem helper (vars : Dict String) (h : Helper) (args : List Value) :
    Growing (h.call vars args) := by
  cases h with
  | log => exact (lift _).bind fun _ => .pure _
  | fail => exact (lift _).bind fun _ => fail _
  | warn => exact (lift _).bind fun message => (warn message).bind fun _ => .pure _
  | «variable» | fromJson | toJson => exact lift _

theorem capturePart (args : List Value) : Growing (Evaluator.capturePart args) := by
  refine (lift _).bind fun (text, name) => ?_
  dsimp only
  split
  · refine (advance fun p => ?_).bind fun _ => .pure _
    exact .of_eq rfl rfl
  · exact fail _

theorem actionCall (e : Evaluator) (c : Calls Progress) (name : String) (args : List Value) :
    Growing (e.actionEnvironment.call c name args) := by
  unfold Evaluator.actionEnvironment Evaluator.environment
  dsimp only
  split
  · exact helper _ _ args
  · split
    · exact call _ _ args
    · exact fail _

theorem actionFilter (e : Evaluator) (name : String) (filter : List Value → Host Value)
    (h : e.actionEnvironment.filter? name = some filter) (args : List Value) :
    Growing (filter args) := by
  unfold Evaluator.actionEnvironment Evaluator.environment at h
  dsimp only at h
  split at h
  · cases h
    exact helper _ _ args
  · split at h
    · cases h
      exact capturePart args
    · cases h

end Growing

/-! ## §2 Traced runs -/

/-- A call of `ref`: the reference that it was for, and what it denoted. -/
structure RefCall where
  reference : TargetRef
  value : Value

/-- The progress of an evaluation, and the calls of `ref` so far. -/
structure Traced where
  progress : Progress
  calls : List RefCall := []

namespace Traced

/-- A step that is no call of `ref`. -/
def lift (x : Host α) : Eval Traced α := fun m =>
  match x (m.withHost m.host.progress) with
  | .ok (a, n) => .ok (a, n.withHost { m.host with progress := n.host })
  | .error fault => .error fault

/-- Notes a call of `ref`, if the arguments are those of a reference. -/
def note (args : List Value) (value : Value) : Eval Traced Unit :=
  match referenceOf args with
  | .ok reference =>
    modify fun m => { m with host := { m.host with calls := m.host.calls ++ [⟨reference, value⟩] } }
  | .error _ => pure ()

/-- The environment of the template of an action, in which the calls of `ref` are noted. -/
def environment (e : Evaluator) : Environment Traced where
  functions := e.actionEnvironment.functions
  call _ name args := do
    let value ← lift (e.actionEnvironment.call (callsOf e.actionEnvironment 0) name args)
    if name = Binding.ref.name then note args value
    return value
  filter? name := (e.actionEnvironment.filter? name).map fun filter args => lift (filter args)
  method _ handle method args :=
    lift (e.actionEnvironment.method (callsOf e.actionEnvironment 0) handle method args)
  load := e.actionEnvironment.load

end Traced

/-- Runs the template of an action, and notes the calls of `ref`. -/
def Evaluator.traceTemplate (e : Evaluator) (program : Sql.ActionProgram) (start : Progress)
    (engine : Engine := .own) : Except EvaluationError Traced :=
  match engine.render (Traced.environment e) e.options.fuel program.filePath
      (e.prelude ++ program.template) (Evaluator.literalValues program) { progress := start } with
  | .ok (_, traced) => .ok traced
  | .error fault => .error (.template fault)

/-- What is known about a traced run: the progress is that of the run.  There are no handles, and
the first action, of a certain kind, has all references that were called for as dependencies. -/
structure Follows (kind : ActionKind) (p : Progress) (t : Traced) : Prop where
  progress_eq : t.progress = p
  objects_eq : p.objects = #[]
  exists_context : ∃ ctx, p.contexts[0]? = some ctx ∧ ctx.draft.kind = kind ∧
    ∀ c ∈ t.calls, c.value = .text (Deferred.encode (.target c.reference)) ∧
      c.reference ∈ ctx.draft.dependencies

/-- Runs and traced runs are compared in full. -/
def comparison (kind : ActionKind) : Comparison Progress Traced where
  related := Follows kind

variable {kind : ActionKind}

theorem Follows.of_grows {p q : Progress} {t : Traced} (h : Follows kind p t) (hgrows : p.Grows q) :
    Follows kind q { t with progress := q } := by
  obtain ⟨ctx, hctx, hkind, hcalls⟩ := h.exists_context
  obtain ⟨ctx', hctx', hextends⟩ := hgrows.context hctx
  exact ⟨rfl, hgrows.objects_eq.trans h.objects_eq, ctx', hctx', hextends.kind_eq.trans hkind,
    fun c hc => ⟨(hcalls c hc).1, hextends.dependencies_subset (hcalls c hc).2⟩⟩

theorem Follows.noted {p : Progress} {t : Traced} (h : Follows kind p t) {ctx : ActionContext}
    (hctx : p.contexts[0]? = some ctx) {reference : TargetRef}
    (hmem : reference ∈ ctx.draft.dependencies) :
    Follows kind p
      { t with
        calls := t.calls ++ [⟨reference, .text (Deferred.encode (.target reference))⟩] } := by
  obtain ⟨ctx', hctx', hkind, hcalls⟩ := h.exists_context
  obtain rfl : ctx = ctx' := Option.some.inj (hctx.symm.trans hctx')
  refine ⟨h.progress_eq, h.objects_eq, ctx, hctx, hkind, fun c hc => ?_⟩
  rcases List.mem_append.1 hc with hc | hc
  · exact hcalls c hc
  · obtain rfl := List.mem_singleton.1 hc
    exact ⟨rfl, hmem⟩

theorem lift_eq {x : Host α} {m : Machine Progress} {t : Traced} (h : t.progress = m.host) :
    Traced.lift x (m.withHost t) =
      match x m with
      | .ok (a, n) => .ok (a, n.withHost { t with progress := n.host })
      | .error fault => .error fault := by
  obtain ⟨progress, calls⟩ := t
  obtain rfl : progress = m.host := h
  rfl

theorem lift_agrees {x : Host α} (hx : Growing x) :
    Eval.Agrees (comparison kind) x (Traced.lift x) := by
  rintro m _ ⟨h⟩
  rw [lift_eq h.progress_eq]
  cases hrun : x m with
  | error fault => exact .error fault
  | ok result => exact .ok ⟨h.of_grows (hx hrun)⟩

/-- A handle is looked up among the objects, and if there are none, nothing is found. -/
theorem callHandle_eq_error {m : Machine Progress} (h : m.host.objects = #[])
    (policy : UnsupportedPolicy) (c : Calls Progress) (handle : Handle) (method : String)
    (args : List Value) : callHandle policy c handle method args m =
      .error { cause := .unknownMethod "plain object" method } := by
  obtain ⟨memory, warnings, contexts, tests, objects, parts⟩ := m
  obtain rfl : objects = #[] := h
  rfl

/-- A step without outcome among the actions that have no handles. -/
theorem callHandle_agrees (policy : UnsupportedPolicy) (c d : Calls Progress) (handle : Handle)
    (method : String) (args : List Value) :
    Eval.Agrees (comparison kind) (callHandle policy c handle method args)
      (Traced.lift (callHandle policy d handle method args)) := by
  rintro m _ ⟨h⟩
  rw [lift_eq h.progress_eq, callHandle_eq_error h.objects_eq, callHandle_eq_error h.objects_eq]
  exact .error _

/-- A call of a binding describes the first action, if the action supports the binding. -/
theorem call_eq {policy : UnsupportedPolicy} {m : Machine Progress} {ctx : ActionContext}
    (hctx : m.host.contexts[0]? = some ctx) (b : Binding) (args : List Value) :
    Host.call policy 0 b args m =
      (if ctx.draft.kind.supports b then Host.describe 0 (describe ctx.incremental b args)
        else Host.unsupported policy ctx b) m := by
  change (if (m.host.contexts[0]?.getD default).draft.kind.supports b then
      Host.describe 0 (describe (m.host.contexts[0]?.getD default).incremental b args)
    else Host.unsupported policy (m.host.contexts[0]?.getD default) b : Host Value) m = _
  rw [hctx, Option.getD_some]

theorem ref_agrees (policy : UnsupportedPolicy) (href : kind.supports .ref = true)
    (args : List Value) :
    Eval.Agrees (comparison kind) (Host.call policy 0 .ref args) (do
      let value ← Traced.lift (Host.call policy 0 .ref args)
      Traced.note args value
      return value) := by
  rintro m _ ⟨h⟩
  obtain ⟨ctx, hctx, hkind, hcalls⟩ := h.exists_context
  rename_i t
  change Eval.SameOutcome _ _ (Traced.lift _ (m.withHost t) >>= fun result =>
    (do Traced.note args result.1; return result.1 : Eval Traced Value) result.2)
  -- Both runs make the same call, and the traced one notes it.
  rw [lift_eq h.progress_eq]
  cases hrun : Host.call policy 0 .ref args m with
  | error fault => exact .error fault
  | ok result =>
    obtain ⟨value, n⟩ := result
    have hgrows := Growing.call _ _ _ hrun
    rw [call_eq hctx, if_pos (hkind ▸ href)] at hrun
    obtain ⟨draft, hdraft, hhost⟩ := exists_of_describe_eq_ok hrun
    rw [hctx, Option.getD_some] at hdraft hhost
    obtain ⟨reference, hreference, rfl, hmem⟩ := describe_ref hdraft
    have hdescribed : n.host.contexts[0]? = some { ctx with draft } := by
      rw [hhost]
      exact Array.getElem?_setIfInBounds_self_of_lt (Array.getElem?_eq_some_iff.1 hctx).1
    change Eval.SameOutcome _ _
      ((do Traced.note args _; return _ : Eval Traced Value) (n.withHost _))
    unfold Traced.note
    rw [hreference]
    exact .ok ⟨(h.of_grows hgrows).noted hdescribed hmem⟩

/-- What is traced agrees with what is not. -/
theorem environment_agrees (e : Evaluator) (href : kind.supports .ref = true) :
    e.actionEnvironment.Agrees (comparison kind) (Traced.environment e) := by
  refine ⟨rfl, rfl, fun {c _} _ name args => ?_, fun name => ?_, fun _ handle method args => ?_⟩
  · by_cases hname : name = Binding.ref.name
    · subst hname
      exact ref_agrees e.options.policy href args
    · -- Nothing is noted of the other functions, but the traced call has one step more.
      rw [← bind_pure (e.actionEnvironment.call c name args)]
      refine (lift_agrees (Growing.actionCall e c name args)).bind fun value => ?_
      rw [if_neg hname]
      exact .pure value
  · have hfilter := Growing.actionFilter e name
    change FilterAgrees _ (e.actionEnvironment.filter? name)
      ((e.actionEnvironment.filter? name).map fun filter args => Traced.lift (filter args))
    cases hfound : e.actionEnvironment.filter? name with
    | none => exact .none
    | some filter => exact .some fun args => lift_agrees (hfilter filter hfound args)
  · exact callHandle_agrees _ _ _ handle method args

/-- The traced run of a template exists if the run does, and is the same. -/
theorem traceTemplate_of_runTemplate {engine : Engine} (hengine : engine.Uniform) {e : Evaluator}
    {program : Sql.ActionProgram} {draft : Draft} (href : draft.kind.supports .ref = true)
    {progress : Progress}
    (h : e.runTemplate e.actionEnvironment program { contexts := #[{ draft }] } engine =
      .ok progress) :
    ∃ traced, e.traceTemplate program { contexts := #[{ draft }] } engine = .ok traced ∧
      Follows draft.kind progress traced := by
  have hstart : Follows draft.kind { contexts := #[{ draft }] }
      { progress := { contexts := #[{ draft }] } } :=
    ⟨rfl, rfl, { draft }, rfl, rfl, fun c hc => absurd hc List.not_mem_nil⟩
  have hsame := hengine.agrees (environment_agrees e href) e.options.fuel program.filePath
    (e.prelude ++ program.template) (Evaluator.literalValues program) hstart
  unfold Evaluator.runTemplate Evaluator.run at h
  unfold Evaluator.traceTemplate
  -- From here on the two runs matter only by what they come to.
  generalize engine.render e.actionEnvironment _ _ _ _ _ = result,
    engine.render (Traced.environment e) _ _ _ _ _ = result' at h hsame ⊢
  cases hsame with
  | ok hfollows =>
    cases h
    exact ⟨_, rfl, hfollows⟩
  | error fault => cases h
  | excused hlenient => exact hlenient.elim

/-! ## §3 Dependencies of an action -/

/-- The draft that the first run starts from stands alongside itself. -/
theorem startDraft_alongside {program : Sql.ActionProgram} {kind : ActionKind} {start : Draft}
    (h : Evaluator.startDraft program kind = .ok start) : start.Alongside kind Eq start := by
  obtain ⟨declared, hdeclared, h⟩ := exists_of_bind_eq_ok h
  have hdraft := Draft.declare_alongside hdeclared
  -- A configuration, a type or nothing is set first.
  split at h
  all_goals
    dsimp only at h
    split at h
    case h_1 houtcome =>
      cases h
      first
        | exact (Draft.parallel_configure (fun _ => rfl) _).self hdraft houtcome
        | exact (Draft.parallel_setter (s := .setType _) rfl rfl).self hdraft houtcome
        | exact (Draft.Parallel.pure ()).self hdraft houtcome
    case h_2 => cases h

theorem extending_giveParts (kind : ActionKind) (parts : List (Sql.Part × String)) :
    Draft.Extending (Evaluator.giveParts kind parts) := by
  induction parts with
  | nil => exact .pure ()
  | cons entry rest ih =>
    obtain ⟨part, text⟩ := entry
    refine Draft.Extending.bind ?_ fun _ => ih
    unfold Evaluator.givePart
    split
    · exact Draft.extending_setter (.addQuery text)
    · exact Draft.extending_setter (.setQuery text)
    · exact Draft.extending_setter (.setQuery text)
    · exact .ite (.pure ()) (Draft.extending_setter (.addPreOp text))
    · exact .ite (.pure ()) (Draft.extending_setter (.addPostOp text))
    · exact .ite (.pure ()) (Draft.extending_setter (.setWhere text))
    · exact .pure ()

/-- The registration is made from the draft of the first action and from the texts of the parts.
Only the query of new rows is from elsewhere. -/
def Progress.Gives (p : Progress) (r : Registration) : Prop :=
  ∃ ctx stage query after, p.contexts[0]? = some ctx ∧
    Draft.apply (do Evaluator.giveParts ctx.draft.kind p.parts; Draft.finish)
      { ctx.draft with stage, incrementalQuery := query } = (.ok r, after)

theorem withIncrementalQuery_eq {engine : Engine} {e : Evaluator} {program : Sql.ActionProgram}
    {draft after : Draft} (h : e.withIncrementalQuery program draft engine = .ok after) :
    ∃ stage query, after = { draft with stage, incrementalQuery := query } := by
  unfold Evaluator.withIncrementalQuery at h
  split at h
  · obtain ⟨progress, -, h⟩ := exists_of_bind_eq_ok h
    cases h
    unfold Draft.setIncrementalQuery
    rw [Draft.apply_change]
    split
    · exact ⟨draft.stage, draft.incrementalQuery, rfl⟩
    · exact ⟨.configured, some (Evaluator.firstQuery progress.parts), rfl⟩
  · cases h
    exact ⟨draft.stage, draft.incrementalQuery, rfl⟩

/-- Every reference that the run of an action's template makes is a dependency of the action,
whatever engine runs it. -/
theorem evaluate_references {engine : Engine} (hengine : engine.Uniform) {e : Evaluator}
    {program : Sql.ActionProgram} (hkind : program.type.kind? = some kind)
    (href : kind.supports .ref = true) {output : FileOutput}
    (h : e.evaluate (.action program) engine = .ok output) :
    ∃ draft traced registration,
      Evaluator.startDraft program kind = .ok draft ∧
      e.runTemplate e.actionEnvironment program { contexts := #[{ draft }] } engine =
        .ok traced.progress ∧
      e.traceTemplate program { contexts := #[{ draft }] } engine = .ok traced ∧
      output.registrations = [registration] ∧ traced.progress.Gives registration ∧
      ∀ call ∈ traced.calls, call.value = .text (Deferred.encode (.target call.reference)) ∧
        call.reference ∈ registration.dependencies := by
  simp only [Evaluator.evaluate, hkind] at h
  obtain ⟨draft, hstart, hrest⟩ := exists_of_bind_eq_ok h
  obtain ⟨progress, hrun, hrest⟩ := exists_of_bind_eq_ok hrest
  obtain ⟨after, hincremental, hrest⟩ := exists_of_bind_eq_ok hrest
  obtain ⟨registration, hfinish, hrest⟩ := exists_of_bind_eq_ok hrest
  cases hrest
  replace hstart := eq_ok_of_mapError_eq_ok hstart
  replace hfinish := eq_ok_of_mapError_eq_ok hfinish
  obtain rfl := (startDraft_alongside hstart).kind_eq
  obtain ⟨traced, htrace, hfollows⟩ := traceTemplate_of_runTemplate hengine href hrun
  obtain ⟨ctx, hctx, hctxkind, hcalls⟩ := hfollows.exists_context
  rw [hctx] at hincremental
  change e.withIncrementalQuery program ctx.draft engine = .ok after at hincremental
  obtain ⟨stage, query, rfl⟩ := withIncrementalQuery_eq hincremental
  obtain ⟨final, hgives⟩ := Draft.exists_apply_eq hfinish
  refine ⟨draft, traced, registration, hstart, ?_, htrace, rfl, ?_, fun call hcall => ?_⟩
  · rw [hfollows.progress_eq]
    exact hrun
  · rw [hfollows.progress_eq]
    exact ⟨ctx, stage, query, final, hctx, hgives⟩
  · obtain ⟨hvalue, hmem⟩ := hcalls call hcall
    exact ⟨hvalue, Draft.subset_dependencies_of_finish (extending_giveParts _ _) hgives hmem⟩

theorem evaluate_references_query :
    let e : Evaluator := { project := { disk := { root := .folder [] }, path := "" } }
    ∃ program output, Sql.compile "t.sql" "SELECT $\x7bref('a')\x7d" = .ok (.action program) ∧
      program.type.kind? = some .table ∧ e.evaluate (.action program) = .ok output ∧
      ∃ draft traced registration,
        Evaluator.startDraft program .table = .ok draft ∧
        e.runTemplate e.actionEnvironment program { contexts := #[{ draft }] } =
          .ok traced.progress ∧
        e.traceTemplate program { contexts := #[{ draft }] } = .ok traced ∧
        output.registrations = [registration] ∧ traced.progress.Gives registration ∧
        ∀ call ∈ traced.calls, call.value = .text (Deferred.encode (.target call.reference)) ∧
          call.reference ∈ registration.dependencies := by
  intro e
  have h : (do
      let .action program ← (Sql.compile "t.sql" "SELECT $\x7bref('a')\x7d").toOption | none
      let _ ← (e.evaluate (.action program)).toOption
      return program.type.kind?) = some (some .table) := by decide +kernel
  obtain ⟨compiled, hcompile, h⟩ := exists_of_toOption_bind_eq_some h
  cases compiled with
  | script filePath source => cases h
  | action program =>
    obtain ⟨output, houtput, h⟩ := exists_of_toOption_bind_eq_some h
    have hkind : program.type.kind? = some .table := Option.some.inj h
    exact ⟨program, output, hcompile, hkind, houtput,
      evaluate_references Engine.uniform_own hkind (by decide) houtput⟩

/-- In the second run `incremental()` is true and another reference is made, which is no dependency
of the table. -/
theorem exists_reference_not_mem_dependencies :
    let e : Evaluator := { project := { disk := { root := .folder [] }, path := "" } }
    let source := "/*jinja \x7b\x7btype('incremental')\x7d\x7d*/" ++
      "$\x7bref('a') if incremental() else ref('b')\x7d"
    ∃ program start first second output,
      Sql.compile "t.sql" source = .ok (.action program) ∧
      Evaluator.startDraft program .table = .ok start ∧
      e.runTemplate e.actionEnvironment program { contexts := #[{ draft := start }] } =
        .ok first ∧
      e.traceTemplate program
        { contexts := #[{
            draft := (first.contexts[0]?.map (·.draft)).getD start
            incremental := true }] } = .ok second ∧
      e.evaluate (.action program) = .ok output ∧
      second.calls.map (·.reference) = [.named "a"] ∧
      output.registrations.map (·.dependencies) = [[.named "b"]] := by
  intro e source
  have h : (do
      let .action program ← (Sql.compile "t.sql" source).toOption | none
      let start ← (Evaluator.startDraft program .table).toOption
      let first ←
        (e.runTemplate e.actionEnvironment program { contexts := #[{ draft := start }] }).toOption
      let second ← (e.traceTemplate program
        { contexts := #[{
            draft := (first.contexts[0]?.map (·.draft)).getD start
            incremental := true }] }).toOption
      let output ← (e.evaluate (.action program)).toOption
      return (second.calls.map (·.reference), output.registrations.map (·.dependencies))) =
      some ([.named "a"], [[.named "b"]]) := by decide +kernel
  obtain ⟨compiled, hcompile, h⟩ := exists_of_toOption_bind_eq_some h
  cases compiled with
  | script filePath source => cases h
  | action program =>
    obtain ⟨start, hstart, h⟩ := exists_of_toOption_bind_eq_some h
    obtain ⟨first, hfirst, h⟩ := exists_of_toOption_bind_eq_some h
    obtain ⟨second, hsecond, h⟩ := exists_of_toOption_bind_eq_some h
    obtain ⟨output, houtput, h⟩ := exists_of_toOption_bind_eq_some h
    obtain ⟨hcalls, hdependencies⟩ := Prod.mk.inj (Option.some.inj h)
    exact ⟨program, start, first, second, output, hcompile, hstart, hfirst, hsecond, houtput,
      hcalls, hdependencies⟩

end SqlWorkflow.Evaluation
