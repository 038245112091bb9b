import SqlWorkflow.Proofs.Evaluation.Environments
import SqlWorkflow.Proofs.Evaluation.References

/-!
# Runs in which only some calls are let through

The template of an action is run up to two times, from different drafts.  What a run finds out about
the draft it learns from the calls of two bindings, which say what the action is called and whether
it is described for the query of new rows.  A guarded run lets a call through only if what it
denotes is allowed.

- **§1** Guarded environments, and progress that stands alongside.
- **§2** Calls in a guarded run and in an unguarded one.
- **§3** If the guarded run of a template succeeds, so does the unguarded run from a draft alongside
  (`Guards.runTemplate`).
-/

namespace SqlWorkflow.Evaluation

open Template
open Eval (Agrees)

variable {α : Type} {kind : ActionKind} {names : String → String → Prop}

/-! ## §1 Guarded environments -/

/-- What calls of bindings may denote. -/
abbrev Guard := Binding → Value → Bool

/-- A call of a binding that is refused if it denotes something that is not allowed. -/
def Host.guarded (allowed : Guard) (b : Binding) (x : Host Value) : Host Value := do
  let value ← x
  if allowed b value then return value
  else Eval.fail (.unknownFunction b.name)

/-- The environment of the template of an action, in which calls of bindings are guarded. -/
def Evaluator.guardedEnvironment (e : Evaluator) (allowed : Guard) : Environment Progress :=
  e.environment (Binding.all.map Binding.name) true fun _ name args =>
    match Binding.ofName? name with
    | some b => Host.guarded allowed b (Host.call e.options.policy 0 b args)
    | none => Eval.fail (.unknownFunction name)

/-- If everything is allowed, nothing is guarded. -/
theorem guardedEnvironment_all (e : Evaluator) :
    e.guardedEnvironment (fun _ _ => true) = e.actionEnvironment := by
  refine congrArg (e.environment _ true) ?_
  funext _ name args
  cases Binding.ofName? name with
  | some b => exact bind_pure (Host.call e.options.policy 0 b args)
  | none => rfl

/-- The guard lets nothing through by which runs can tell drafts apart, if their names and what they
are described for are related. -/
structure Guards (allowed : Guard) (names : String → String → Prop) (flags : Bool → Bool → Prop) :
    Prop where
  refl (name : String) : names name name
  name {name name' : String} (h : allowed .ownName (.text name) = true) (hname : names name name') :
    name' = name
  incremental {i j : Bool} (h : allowed .incremental (.bool i) = true) (hflag : flags i j) : j = i

/-- Progress with the same texts and without handles, in which the drafts of the first contexts
stand alongside. -/
structure Progress.Alongside (kind : ActionKind) (names : String → String → Prop)
    (flags : Bool → Bool → Prop) (p q : Progress) : Prop where
  parts_eq : q.parts = p.parts
  objects_eq : p.objects = #[]
  objects_eq' : q.objects = #[]
  exists_contexts : ∃ ctx ctx', p.contexts[0]? = some ctx ∧ q.contexts[0]? = some ctx' ∧
    flags ctx.incremental ctx'.incremental ∧ ctx.draft.Alongside kind names ctx'.draft

/-- What becomes of guarded runs that succeed. -/
def guardedRuns (kind : ActionKind) (names : String → String → Prop)
    (flags : Bool → Bool → Prop) : Comparison Progress Progress where
  related := Progress.Alongside kind names flags
  lenient := True

variable {allowed : Guard} {flags : Bool → Bool → Prop}

/-! ## §2 Calls -/

theorem exists_of_guarded_eq_ok {b : Binding} {x : Host Value} {m n : Machine Progress} {v : Value}
    (h : Host.guarded allowed b x m = .ok (v, n)) : x m = .ok (v, n) ∧ allowed b v = true := by
  obtain ⟨⟨value, n'⟩, hx, hrest⟩ := exists_of_bind_eq_ok h
  dsimp only at hrest
  split at hrest
  next hallowed =>
    cases hrest
    exact ⟨hx, hallowed⟩
  next => cases hrest

theorem describe_eq_ok {index : Nat} {x : Act α} {m : Machine Progress} {ctx : ActionContext}
    {a : α} {draft : Draft} (hctx : m.host.contexts[index]? = some ctx)
    (hx : x ctx.draft = .ok (a, draft)) :
    Host.describe index x m = .ok (a, { m with host :=
      { m.host with contexts := m.host.contexts.setIfInBounds index { ctx with draft } } }) := by
  have hlift : Host.lift (x (m.host.contexts[index]?.getD default).draft) m =
      .ok ((a, draft), m) := by
    rw [hctx, Option.getD_some, hx]
    rfl
  change Except.bind (Host.lift (x (m.host.contexts[index]?.getD default).draft) m) _ = _
  rw [hlift, hctx]
  rfl

/-- A use of a binding that the action does not support is refused, or it counts as empty text and
has no effect besides a warning. -/
theorem unsupported_cases (policy : UnsupportedPolicy) (ctx : ActionContext) (b : Binding)
    (m : Machine Progress) :
    (policy = .error ∧ ∃ fault, Host.unsupported policy ctx b m = .error fault) ∨
      (policy ≠ .error ∧ ∃ warnings, Host.unsupported policy ctx b m =
        .ok (nothing, { m with host := { m.host with warnings } })) := by
  cases policy with
  | silent => exact .inr ⟨UnsupportedPolicy.noConfusion, m.host.warnings, rfl⟩
  | error => exact .inl ⟨rfl, _, rfl⟩
  | warn =>
    refine .inr ⟨UnsupportedPolicy.noConfusion, ?_⟩
    dsimp only [Host.unsupported]
    split
    · rw [Host.warn_eq]
      exact ⟨_, rfl⟩
    · exact ⟨m.host.warnings, rfl⟩

variable {p q : Progress}

theorem Progress.Alongside.warned (h : p.Alongside kind names flags q)
    (warnings warnings' : List String) :
    Progress.Alongside kind names flags { p with warnings } { q with warnings := warnings' } :=
  ⟨h.parts_eq, h.objects_eq, h.objects_eq', h.exists_contexts⟩

/-- The first contexts are replaced by others with the same flags. -/
theorem Progress.Alongside.described (h : p.Alongside kind names flags q) {ctx ctx' : ActionContext}
    (hctx : p.contexts[0]? = some ctx) (hctx' : q.contexts[0]? = some ctx')
    (hflag : flags ctx.incremental ctx'.incremental) {draft draft' : Draft}
    (hdrafts : draft.Alongside kind names draft') :
    Progress.Alongside kind names flags
      { p with contexts := p.contexts.setIfInBounds 0 { ctx with draft } }
      { q with contexts := q.contexts.setIfInBounds 0 { ctx' with draft := draft' } } := by
  refine ⟨h.parts_eq, h.objects_eq, h.objects_eq', { ctx with draft },
    { ctx' with draft := draft' }, ?_, ?_, hflag, hdrafts⟩
  · exact Array.getElem?_setIfInBounds_self_of_lt (Array.getElem?_eq_some_iff.1 hctx).1
  · exact Array.getElem?_setIfInBounds_self_of_lt (Array.getElem?_eq_some_iff.1 hctx').1

/-- A call that is let through denotes the same for every draft alongside. -/
theorem Guards.describe_parallel (hguards : Guards allowed names flags) {i j : Bool}
    (hflag : flags i j) {d d' e : Draft} (hdrafts : d.Alongside kind names d') {b : Binding}
    {args : List Value} {v : Value} (h : describe i b args d = .ok (v, e))
    (hallowed : allowed b v = true) :
    ∃ e', describe j b args d' = .ok (v, e') ∧ e.Alongside kind names e' := by
  -- The guard is needed for two bindings only; it lets through what is the same for both drafts.
  by_cases hname : b = .ownName
  · subst hname
    cases h
    have hsame := hguards.name hallowed hdrafts.name
    refine ⟨d', ?_, hdrafts⟩
    rw [← hsame]
    rfl
  · by_cases hincremental : b = .incremental
    · subst hincremental
      cases h
      obtain rfl := hguards.incremental hallowed hflag
      exact ⟨d', rfl, hdrafts⟩
    · rw [describe_eq_of_ne hincremental j i]
      exact ActParallel.describe hguards.refl i hname args hdrafts h

/-- If it is not refused for one action, such a call does the same for every other one. -/
theorem unsupported_agrees (policy : UnsupportedPolicy) (ctx ctx' : ActionContext) (b : Binding) :
    Agrees (guardedRuns kind names flags) (Host.unsupported policy ctx b)
      (Host.unsupported policy ctx' b) := by
  rintro m _ ⟨h⟩
  rename_i q
  rcases unsupported_cases policy ctx b m with ⟨-, fault, hfault⟩ | ⟨hpolicy, warnings, hok⟩
  · rw [hfault]
    exact .excused trivial fault _
  · rcases unsupported_cases policy ctx' b (m.withHost q) with ⟨herror, -⟩ | ⟨-, warnings', hok'⟩
    · exact absurd herror hpolicy
    · rw [hok, hok']
      exact .ok ⟨h.warned warnings warnings'⟩

theorem Guards.call (hguards : Guards allowed names flags) (policy : UnsupportedPolicy)
    (b : Binding) (args : List Value) :
    Agrees (guardedRuns kind names flags) (Host.guarded allowed b (Host.call policy 0 b args))
      (Host.call policy 0 b args) := by
  rintro m _ ⟨h⟩
  rename_i q
  cases hguarded : Host.guarded allowed b (Host.call policy 0 b args) m with
  | error fault => exact .excused trivial fault _
  | ok result =>
    -- What is let through is what the call without a guard gives.
    obtain ⟨v, n⟩ := result
    obtain ⟨hcall, hallowed⟩ := exists_of_guarded_eq_ok hguarded
    obtain ⟨ctx, ctx', hctx, hctx', hflag, hdrafts⟩ := h.exists_contexts
    have hkind : ctx'.draft.kind = ctx.draft.kind := hdrafts.kind_eq'.trans hdrafts.kind_eq.symm
    by_cases hb : ctx.draft.kind.supports b = true
    · have hb' : ctx'.draft.kind.supports b = true := hkind.symm ▸ hb
      rw [call_eq hctx, if_pos hb] at hcall
      obtain ⟨draft, hdraft, -⟩ := exists_of_describe_eq_ok hcall
      rw [hctx, Option.getD_some] at hdraft
      rw [describe_eq_ok hctx hdraft] at hcall
      cases hcall
      obtain ⟨draft', hdraft', hdrafts'⟩ := hguards.describe_parallel hflag hdrafts hdraft hallowed
      rw [call_eq (m := m.withHost q) hctx', if_pos hb', describe_eq_ok hctx' hdraft']
      exact .ok ⟨h.described hctx hctx' hflag hdrafts'⟩
    · have hb' : ¬ctx'.draft.kind.supports b = true := hkind.symm ▸ hb
      rw [call_eq hctx, if_neg hb] at hcall
      rw [call_eq (m := m.withHost q) hctx', if_neg hb', ← hcall]
      exact unsupported_agrees policy ctx ctx' b ⟨h⟩

/-! ## §3 Runs -/

theorem common_guardedRuns : Common (guardedRuns kind names flags) where
  warn message := by
    rw [Host.warn_eq]
    rintro m _ ⟨h⟩
    exact .ok ⟨h.warned _ _⟩
  capture entry := by
    rintro m _ ⟨h⟩
    exact .ok ⟨congrArg (· ++ [entry]) h.parts_eq, h.objects_eq, h.objects_eq', h.exists_contexts⟩

theorem Guards.environment (hguards : Guards allowed names flags) (e : Evaluator) :
    (e.guardedEnvironment allowed).Agrees (guardedRuns kind names flags) e.actionEnvironment := by
  refine Evaluator.environment_agrees common_guardedRuns e _ true (fun _ name args => ?_)
    fun _ handle method args => ?_
  · cases Binding.ofName? name with
    | some b => exact hguards.call e.options.policy b args
    | none => exact .fail _
  · -- Without handles every call of a method fails.
    rintro m _ ⟨h⟩
    rw [callHandle_eq_error h.objects_eq]
    exact .excused trivial _ _

/-- A run from a draft alongside succeeds if the guarded one does, and captures the same texts. -/
theorem Guards.runTemplate (hguards : Guards allowed names flags) {engine : Engine}
    (hengine : engine.Uniform) {e : Evaluator} {program : Sql.ActionProgram}
    {start start' : Progress} (hstart : start.Alongside kind names flags start') {p : Progress}
    (h : e.runTemplate (e.guardedEnvironment allowed) program start engine = .ok p) :
    ∃ q, e.runTemplate e.actionEnvironment program start' engine = .ok q ∧
      p.Alongside kind names flags q := by
  have hsame := hengine.agrees (hguards.environment e) e.options.fuel program.filePath
    (e.prelude ++ program.template) (Evaluator.literalValues program) hstart
  unfold Evaluator.runTemplate Evaluator.run at h ⊢
  generalize engine.render (e.guardedEnvironment allowed) _ _ _ _ _ = guarded,
    engine.render e.actionEnvironment _ _ _ _ _ = unguarded at h hsame ⊢
  cases hsame with
  | ok hprogress =>
    cases h
    exact ⟨_, rfl, hprogress⟩
  | error fault => cases h
  | excused _ fault => cases h

end SqlWorkflow.Evaluation
