import SqlWorkflow.Evaluation.Describe
import SqlWorkflow.Outcome
import SqlWorkflow.Proofs.Action.Parallel

/-!
# Calls of bindings

A template describes its action by calls of bindings.  All of them but the call for the action's own
name get at the draft through setters and configurations alone (`ActDescribing.describe`), so that
what is true of these is true of the calls.  It follows that no call takes back a dependency
(`ActExtending.describe`) and that a call which succeeds for a draft does so for every draft
alongside (`ActParallel.describe`).

- **§1** Calls made of setters and configurations.
- **§2** Calls that extend the draft.
- **§3** Calls on drafts alongside one another.
-/

namespace SqlWorkflow.Evaluation

open Template

variable {α β : Type}

/-! ## §1 Describing a draft -/

/-- Calls made of setters, none of which gives a query, and of configurations.  The draft is not
looked at in any other way. -/
inductive ActDescribing : {α : Type} → Act α → Prop where
  | pure {α : Type} (a : α) : ActDescribing (pure a : Act α)
  | throw {α : Type} (e : CallError) : ActDescribing (throw e : Act α)
  | bind {α β : Type} {x : Act α} {f : α → Act β} (hx : ActDescribing x)
      (hf : ∀ a, ActDescribing (f a)) : ActDescribing (x >>= f)
  | set (s : Draft.Setter) (hquery : s.content.query = none)
      (hnew : s.content.incrementalQuery = none) : ActDescribing (act s.change)
  | configure (config : ActionConfig) : ActDescribing (act (Draft.configure config))

namespace ActDescribing

theorem lift (x : Except CallError α) : ActDescribing (liftM x : Act α) := by
  cases x with
  | ok a => exact .pure a
  | error e => exact .throw e

theorem all (setter : α → Draft.Setter) (hquery : ∀ a, (setter a).content.query = none)
    (hnew : ∀ a, (setter a).content.incrementalQuery = none) (items : List α) :
    ActDescribing (actAll (fun a => (setter a).change) items) := by
  induction items with
  | nil => exact .pure ()
  | cons a rest ih => exact (set (setter a) (hquery a) (hnew a)).bind fun _ => ih

theorem describeBy (args : List Value) : ActDescribing (describeBy args) := by
  unfold Evaluation.describeBy
  split
  · exact .throw _
  · split
    · refine (lift _).bind fun columns => .bind ?_ fun _ => .pure _
      exact all (fun entry => .setColumn entry.1 entry.2) (fun _ => rfl) (fun _ => rfl)
        columns.entries
    · exact (lift _).bind fun column => (lift _).bind fun doc =>
        (set (.setColumn column doc) rfl rfl).bind fun _ => .pure _

/-- Only the call for the name looks at the draft itself. -/
protected theorem describe (incremental : Bool) {b : Binding} (hname : b ≠ .ownName)
    (args : List Value) : ActDescribing (describe incremental b args) := by
  cases b with
  | ownName => exact absurd rfl hname
  | config => exact (lift _).bind fun config => (configure config).bind fun _ => .pure _
  | type => exact (lift _).bind fun type => (set (.setType type) rfl rfl).bind fun _ => .pure _
  | ref =>
    exact (lift _).bind fun r => (set (.addDependency r) rfl rfl).bind fun _ => .pure _
  | resolve => exact (lift _).bind fun _ => .pure _
  | dependencies =>
    refine (lift _).bind fun names => .bind ?_ fun _ => .pure _
    exact all (fun name => .addDependency (TargetRef.parse name)) (fun _ => rfl) (fun _ => rfl)
      names
  | choose => cases args <;> exact .pure _
  | incrementalWhere =>
    exact (lift _).bind fun clause => (set (.setWhere clause) rfl rfl).bind fun _ => .pure _
  | preOps =>
    refine (lift _).bind fun statements => .bind ?_ fun _ => .pure _
    exact all .addPreOp (fun _ => rfl) (fun _ => rfl) statements
  | postOps =>
    refine (lift _).bind fun statements => .bind ?_ fun _ => .pure _
    exact all .addPostOp (fun _ => rfl) (fun _ => rfl) statements
  | descriptor | describe => exact describeBy args
  | hasOutput => exact (set (.setHasOutput _) rfl rfl).bind fun _ => .pure _
  | tags => exact (lift _).bind fun tags => (set (.addTags tags) rfl rfl).bind fun _ => .pure _
  | disabled => exact (set (.setDisabled _) rfl rfl).bind fun _ => .pure _
  | bigquery =>
    exact (lift _).bind fun options => (set (.setBigquery options) rfl rfl).bind fun _ => .pure _
  | ownTarget | thisTarget | ownSchema | ownDatabase | incremental | redshift | snowflake
  | sqlDataWarehouse => exact .pure _

end ActDescribing

/-- Only one binding tells whether the query is one of new rows. -/
theorem describe_eq_of_ne {b : Binding} (h : b ≠ .incremental) (i j : Bool) (args : List Value) :
    describe i b args = describe j b args := by
  cases b with
  | incremental => exact absurd rfl h
  | _ => rfl

/-! ## §2 Extending a draft -/

/-- The draft after the call extends the one before, if the call succeeds. -/
def ActExtending (x : Act α) : Prop :=
  ∀ ⦃d : Draft⦄ ⦃a : α⦄ ⦃e : Draft⦄, x d = .ok (a, e) → d.Extends e

namespace ActExtending

theorem of_act {change : Draft.Change α} (h : Draft.Extending change) :
    ActExtending (act change) := by
  intro d a e hact
  have hd := h d
  rw [act_ok hact] at hd
  exact hd

theorem of_describing {x : Act α} (h : ActDescribing x) : ActExtending x := by
  induction h with
  | pure a =>
    rintro d _ _ ⟨⟩
    exact .refl d
  | throw e => rintro d _ _ ⟨⟩
  | bind _ _ hx hf =>
    intro d b e heq
    obtain ⟨⟨a, d'⟩, hfirst, hrest⟩ := exists_of_bind_eq_ok heq
    exact (hx hfirst).trans (hf a hrest)
  | set s => exact of_act (Draft.extending_setter s)
  | configure config => exact of_act (Draft.extending_configure config)

/-- No call takes back a dependency. -/
protected theorem describe (incremental : Bool) (b : Binding) (args : List Value) :
    ActExtending (describe incremental b args) := by
  by_cases hname : b = .ownName
  · subst hname
    rintro d _ _ ⟨⟩
    exact .refl d
  · exact of_describing (.describe incremental hname args)

end ActExtending

/-- A call of `ref` denotes the marker of its reference, which is a dependency from then on. -/
theorem describe_ref {incremental : Bool} {args : List Value} {d e : Draft} {v : Value}
    (h : describe incremental .ref args d = .ok (v, e)) :
    ∃ reference, referenceOf args = .ok reference ∧
      v = .text (Deferred.encode (.target reference)) ∧ reference ∈ e.dependencies := by
  obtain ⟨⟨reference, d'⟩, hreference, h⟩ := exists_of_bind_eq_ok h
  obtain ⟨⟨_, e'⟩, hadd, h⟩ := exists_of_bind_eq_ok h
  cases h
  cases hof : referenceOf args with
  | error error =>
    rw [hof] at hreference
    cases hreference
  | ok found =>
    rw [hof] at hreference
    cases hreference
    exact ⟨reference, rfl, rfl, Draft.mem_of_addDependency (act_ok hadd)⟩

/-! ## §3 Drafts alongside -/

variable {kind : ActionKind} {names : String → String → Prop}

/-- If the call succeeds for a draft, it does so for every draft alongside, in the same way. -/
def ActParallel (kind : ActionKind) (names : String → String → Prop) (x : Act α) : Prop :=
  ∀ ⦃d d' : Draft⦄, d.Alongside kind names d' → ∀ ⦃a : α⦄ ⦃e : Draft⦄, x d = .ok (a, e) →
    ∃ e', x d' = .ok (a, e') ∧ e.Alongside kind names e'

namespace ActParallel

theorem of_act {change : Draft.Change α} (hchange : Draft.Parallel kind names change) :
    ActParallel kind names (act change) := by
  intro d d' h a e heq
  obtain ⟨e', heq', he⟩ := hchange h (act_ok heq)
  refine ⟨e', ?_, he⟩
  unfold act
  rw [heq']

theorem of_describing (hnames : ∀ name, names name name) {x : Act α} (h : ActDescribing x) :
    ActParallel kind names x := by
  induction h with
  | pure a =>
    rintro d d' h _ _ ⟨⟩
    exact ⟨d', rfl, h⟩
  | throw e => rintro d d' h _ _ ⟨⟩
  | @bind _ _ x f _ _ hx hf =>
    intro d d' h b e heq
    obtain ⟨⟨a, d₁⟩, hfirst, hrest⟩ := exists_of_bind_eq_ok heq
    -- The rest of the call goes on from drafts that are alongside again.
    obtain ⟨d₁', hfirst', h₁⟩ := hx h hfirst
    obtain ⟨e', hrest', he⟩ := hf a h₁ hrest
    refine ⟨e', ?_, he⟩
    change (x d' >>= fun r => f r.1 r.2) = _
    rw [hfirst']
    exact hrest'
  | set s hquery hnew => exact of_act (Draft.parallel_setter hquery hnew)
  | configure config => exact of_act (Draft.parallel_configure hnames config)

/-- Drafts alongside can be told apart by their names only. -/
protected theorem describe (hnames : ∀ name, names name name) (incremental : Bool) {b : Binding}
    (hname : b ≠ .ownName) (args : List Value) :
    ActParallel kind names (describe incremental b args) :=
  of_describing hnames (.describe incremental hname args)

end ActParallel

end SqlWorkflow.Evaluation
