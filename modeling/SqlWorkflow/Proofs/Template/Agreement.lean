import SqlWorkflow.Template.Engine

/-!
# Templates know their host only through what they call

A template reaches the host in which it is evaluated through the functions, filters and methods of
its environment alone.  If two environments agree about these up to a relation between the states
of their hosts, every template agrees about everything: it writes the same text, binds the same
names, uses up the same fuel and fails in the same way, and leaves related hosts behind.  A
comparison can also be lenient and ask only what becomes of evaluations that succeed in the first
environment.

- **§1** What it means for two evaluations to agree, and that sequences and choices of evaluations
  that agree do so too.
- **§2** A step that has to do with the memory alone agrees with itself, and so do evaluations in
  other frames, with other output or in place of a template.
- **§3** What it means for the surroundings of two evaluations to agree.
- **§4**, **§5** If they do, so do all expressions (`eval_agrees`) and statements (`exec_agrees`).
- **§6** So do calls and templates as a whole (`render_agrees`).
- **§7** Of an engine nothing else needs to be known (`Engine.Uniform`).
-/

namespace SqlWorkflow.Template

/-- How evaluations in two environments are compared. -/
structure Comparison (σ τ : Type) where
  /-- The states of the two hosts that go together. -/
  related : σ → τ → Prop
  /-- Does a failure of the first evaluation ask nothing of the second one? -/
  lenient : Prop := False

instance {σ τ : Type} : CoeFun (Comparison σ τ) fun _ => σ → τ → Prop := ⟨Comparison.related⟩

variable {σ τ α β : Type} {R : Comparison σ τ}

/-! ## §1 Agreement -/

/-- The machine with another host. -/
def Machine.withHost (m : Machine σ) (host : τ) : Machine τ :=
  { toMemory := m.toMemory, host }

/-- Two machines that differ in their hosts alone, whose states are related. -/
inductive Machine.Agrees (R : Comparison σ τ) : Machine σ → Machine τ → Prop
  | intro {m : Machine σ} {host : τ} (h : R m.host host) : Agrees R m (m.withHost host)

/-- Two outcomes that are the same up to the hosts of the machines, as far as they are compared. -/
inductive Eval.SameOutcome (R : Comparison σ τ) :
    Except Fault (α × Machine σ) → Except Fault (α × Machine τ) → Prop
  | ok {a : α} {m : Machine σ} {n : Machine τ} (h : m.Agrees R n) :
      SameOutcome R (.ok (a, m)) (.ok (a, n))
  | error (fault : Fault) : SameOutcome R (.error fault) (.error fault)
  | excused (h : R.lenient) (fault : Fault) (y : Except Fault (α × Machine τ)) :
      SameOutcome R (.error fault) y

/-- Two evaluations that have the same outcome from machines that agree. -/
def Eval.Agrees (R : Comparison σ τ) (x : Eval σ α) (y : Eval τ α) : Prop :=
  ∀ ⦃m : Machine σ⦄ ⦃n : Machine τ⦄, m.Agrees R n → SameOutcome R (x m) (y n)

namespace Eval.Agrees

variable {x : Eval σ α} {y : Eval τ α}

protected theorem pure (a : α) : Agrees R (pure a : Eval σ α) (pure a) :=
  fun _ _ h => .ok h

protected theorem throw (fault : Fault) : Agrees R (throw fault : Eval σ α) (throw fault) :=
  fun _ _ _ => .error fault

protected theorem bind {f : α → Eval σ β} {g : α → Eval τ β} (hx : Agrees R x y)
    (hf : ∀ a, Agrees R (f a) (g a)) : Agrees R (x >>= f) (y >>= g) := by
  intro m n h
  change SameOutcome R (x m >>= fun r => f r.1 r.2) (y n >>= fun r => g r.1 r.2)
  have hxy := hx h
  generalize x m = first, y n = second at hxy
  cases hxy with
  | ok h => exact hf _ h
  | error fault => exact .error fault
  | excused h => exact .excused h _ _

protected theorem ite {x' : Eval σ α} {y' : Eval τ α} {p : Prop} [Decidable p]
    (h : Agrees R x y) (h' : Agrees R x' y') :
    Agrees R (if p then x else x') (if p then y else y') := by
  split
  · exact h
  · exact h'

/-- What is done with the present machine agrees if it does so for machines that agree. -/
theorem get_bind {f : Machine σ → Eval σ α} {g : Machine τ → Eval τ α}
    (h : ∀ m n, m.Agrees R n → Agrees R (f m) (g n)) : Agrees R (get >>= f) (get >>= g) :=
  fun m n hm => h m n hm hm

protected theorem modify {f : Machine σ → Machine σ} {g : Machine τ → Machine τ}
    (h : ∀ m n, m.Agrees R n → (f m).Agrees R (g n)) :
    Agrees R (modify f : Eval σ PUnit) (modify g) :=
  fun m n hm => .ok (h m n hm)

/-! ## §2 Steps of the machine -/

/-- A step that has to do with the memory alone. -/
theorem step (x : Step α) : Agrees R (ofStep x : Eval σ α) (ofStep x) := by
  rintro m _ ⟨h⟩
  unfold ofStep
  simp only [Machine.withHost]
  cases x m.toMemory with
  | ok result => exact .ok ⟨h⟩
  | error cause => exact .error _

theorem fail (cause : Cause) : Agrees R (fail cause : Eval σ α) (Eval.fail cause) :=
  fun _ _ _ => .error _

theorem fail_bind (cause : Cause) (f : α → Eval σ β) (g : α → Eval τ β) :
    Agrees R (Eval.fail cause >>= f) (Eval.fail cause >>= g) :=
  fun _ _ _ => .error _

theorem lift (x : Except Cause α) : Agrees R (lift x : Eval σ α) (Eval.lift x) := by
  cases x with
  | ok a => exact .pure a
  | error cause => exact fail cause

/-- What is done about a failure does not depend on the host. -/
theorem located (file : String) (line : Nat) (h : Agrees R x y) :
    Agrees R (located file line x) (Eval.located file line y) := by
  intro m n hm
  have hxy := h hm
  unfold Eval.located
  generalize x m = first, y n = second at hxy
  cases hxy with
  | ok h => exact .ok h
  | error fault => exact .error _
  | excused h => exact .excused h _ _

theorem wrapped (cause : Cause) (h : Agrees R x y) :
    Agrees R (wrapped cause x) (Eval.wrapped cause y) := by
  intro m n hm
  have hxy := h hm
  unfold Eval.wrapped
  generalize x m = first, y n = second at hxy
  cases hxy with
  | ok h => exact .ok h
  | error fault => exact .error _
  | excused h => exact .excused h _ _

theorem inside (f : Frame) (h : Agrees R x y) : Agrees R (inside f x) (Eval.inside f y) :=
  (step _).bind fun _ => h.bind fun _ => (step _).bind fun _ => .pure _

variable {x : Eval σ Unit} {y : Eval τ Unit}

theorem capturing (h : Agrees R x y) : Agrees R (capturing x) (Eval.capturing y) :=
  (step _).bind fun _ => h.bind fun _ => step _

theorem apart (frames : List Frame) (cost : Nat) (h : Agrees R x y) :
    Agrees R (apart frames cost x) (Eval.apart frames cost y) :=
  (step _).bind fun _ => (step _).bind fun _ => (step _).bind fun _ => h.bind fun _ =>
    (step _).bind fun _ => (step _).bind fun _ => .pure _

theorem embedded (cost : Nat) (blocks : Dict BlockStack) (h : Agrees R x y) :
    Agrees R (embedded cost blocks x) (Eval.embedded cost blocks y) :=
  (step _).bind fun _ => (step _).bind fun _ => (step _).bind fun _ => (step _).bind fun _ =>
    h.bind fun _ => (step _).bind fun _ => step _

theorem escapingAs (escaping : Bool) (h : Agrees R x y) :
    Agrees R (escapingAs escaping x) (Eval.escapingAs escaping y) :=
  (step _).bind fun _ => (step _).bind fun _ => h.bind fun _ => step _

theorem unextended (h : Agrees R x y) : Agrees R (unextended x) (Eval.unextended y) :=
  (step _).bind fun _ => (step _).bind fun _ => h.bind fun _ => step _

end Eval.Agrees

/-! ## §3 Scenes -/

/-- Calls that agree. -/
structure Calls.Agrees (R : Comparison σ τ) (c : Calls σ) (d : Calls τ) : Prop where
  call (f : Value) (args : List Value) : Eval.Agrees R (c.call f args) (d.call f args)
  run (layer : Layer) : Eval.Agrees R (c.run layer) (d.run layer)
  again (rounds : Rounds) (v : Value) : Eval.Agrees R (c.again rounds v) (d.again rounds v)

/-- Filters that agree, if there are any. -/
inductive FilterAgrees (R : Comparison σ τ) :
    Option (List Value → Eval σ Value) → Option (List Value → Eval τ Value) → Prop
  | none : FilterAgrees R none none
  | some {f : List Value → Eval σ Value} {g : List Value → Eval τ Value}
      (h : ∀ args, Eval.Agrees R (f args) (g args)) : FilterAgrees R (some f) (some g)

/-- Environments that agree about everything that templates reach through them. -/
structure Environment.Agrees (R : Comparison σ τ) (env : Environment σ) (env' : Environment τ) :
    Prop where
  functions : env.functions = env'.functions
  load : env.load = env'.load
  call {c : Calls σ} {d : Calls τ} (h : c.Agrees R d) (name : String) (args : List Value) :
    Eval.Agrees R (env.call c name args) (env'.call d name args)
  filter? (name : String) : FilterAgrees R (env.filter? name) (env'.filter? name)
  method {c : Calls σ} {d : Calls τ} (h : c.Agrees R d) (handle : Handle) (method : String)
    (args : List Value) :
    Eval.Agrees R (env.method c handle method args) (env'.method d handle method args)

/-- Scenes that agree. -/
structure Scene.Agrees (R : Comparison σ τ) (s : Scene σ) (t : Scene τ) : Prop where
  env : s.env.Agrees R t.env
  calls : s.calls.Agrees R t.calls
  file : s.file = t.file

variable {env : Environment σ} {env' : Environment τ} {s : Scene σ} {t : Scene τ}

theorem Scene.Agrees.onLine (hs : s.Agrees R t) (line : Nat) {x : Eval σ α} {y : Eval τ α}
    (h : Eval.Agrees R x y) : Eval.Agrees R (s.onLine line x) (t.onLine line y) := by
  unfold Scene.onLine
  rw [hs.file]
  exact h.located t.file line

open Eval (Agrees)

theorem Builtin.call_agrees (name : String) (args : List Value) :
    Agrees R (Builtin.call name args : Eval σ Value) (Builtin.call name args) := by
  unfold Builtin.call
  refine .ite (.lift _) (.ite (.lift _) ?_)
  exact .bind (.lift _) fun _ => .bind (.step _) fun _ => .pure _

theorem mapItems_agrees {f : Value → Eval σ Value} {g : Value → Eval τ Value}
    (h : ∀ v, Agrees R (f v) (g v)) (items : List Value) :
    Agrees R (mapItems f items) (mapItems g items) := by
  induction items with
  | nil => exact .pure _
  | cons v rest ih => exact (h v).bind fun _ => ih.bind fun _ => .pure _

/-- The filters and tests that a template can ask about are the same. -/
theorem test?_eq (henv : env.Agrees R env') (name : String) : test? env name = test? env' name := by
  have hfilter : isFilter env = isFilter env' := by
    funext name
    have h := henv.filter? name
    unfold isFilter
    generalize env.filter? name = found, env'.filter? name = found' at h
    cases h with
    | none => rfl
    | some _ => rfl
  unfold test?
  rw [hfilter]

theorem selectItems_eq (henv : env.Agrees R env') : selectItems env = selectItems env' := by
  have htest : testNamed env = testNamed env' := by
    funext name
    cases name with
    | none => rfl
    | some name =>
      simp only [testNamed, test?_eq henv]
  unfold selectItems
  rw [htest]

theorem filterBy_agrees (henv : env.Agrees R env') (depth : Nat) (unknown : Cause)
    (name : String) (args : List Value) :
    Agrees R (filterBy env depth unknown name args) (filterBy env' depth unknown name args) := by
  induction depth generalizing unknown name args with
  | zero => exact .fail unknown
  | succ depth ih =>
    have hfilter := henv.filter? name
    unfold filterBy
    generalize env.filter? name = found, env'.filter? name = found' at hfilter
    cases hfilter with
    | some h => exact h args
    | none =>
      rw [selectItems_eq henv]
      dsimp only
      split
      · exact .lift _
      · split
        -- `map` may apply another filter to each item, with one level less.
        case h_5 =>
          split
          · exact .lift _
          · split
            · split
              · exact .bind (.lift _) fun items =>
                  (mapItems_agrees (fun item => ih _ _ _) items).bind fun _ => .pure _
              · exact .fail _
            · exact .fail _
        case h_6 => exact .fail unknown
        all_goals exact .lift _

theorem applyFilter_agrees (henv : env.Agrees R env') (name : String) (args : List Value) :
    Agrees R (applyFilter env name args) (applyFilter env' name args) :=
  filterBy_agrees henv _ _ _ _

theorem applyTest_agrees (henv : env.Agrees R env') (name : String) (args : List Value) :
    Agrees R (applyTest env name args) (applyTest env' name args) := by
  unfold applyTest
  rw [test?_eq henv]
  split
  · exact .lift _
  · exact .fail _

/-! ## §4 Expressions -/

theorem lookUp_eq (henv : env.Agrees R env') : lookUp env = lookUp env' := by
  funext name
  unfold lookUp
  rw [henv.functions]

theorem lookUp_agrees (henv : env.Agrees R env') (name : String) :
    Agrees R (Eval.ofStep (lookUp env name)) (Eval.ofStep (lookUp env' name)) := by
  rw [lookUp_eq henv]
  exact .step _

theorem callMethod_agrees (hs : s.Agrees R t) (v : Value) (method : String) (args : List Value) :
    Agrees R (callMethod s v method args) (callMethod t v method args) := by
  unfold callMethod
  split
  · exact .bind (.step _) fun args => hs.env.method hs.calls _ method args
  · refine .bind (.step _) fun contents => ?_
    split
    · exact hs.calls.call _ args
    · exact .fail _
  · exact .step _
  · split
    · exact hs.calls.call _ args
    · exact .fail _

theorem runBlock_agrees (hs : s.Agrees R t) (layer : Layer) :
    Agrees R (runBlock s layer) (runBlock t layer) :=
  .bind (.inside {} (hs.calls.run layer)) fun _ => .pure _

theorem showBlock_agrees (hs : s.Agrees R t) (name : String) :
    Agrees R (showBlock s name) (showBlock t name) := by
  refine .bind (.step _) fun m => .ite (.pure _) ?_
  split
  · exact .fail _
  · exact .bind (.step _) fun _ => (runBlock_agrees hs _).bind fun _ => .step _

theorem showSuper_agrees (hs : s.Agrees R t) : Agrees R (showSuper s) (showSuper t) :=
  .bind (.step _) fun _ => .bind (.step _) fun _ =>
    .bind (.wrapped _ (runBlock_agrees hs _)) fun _ => .step _

theorem goAgain_agrees (hs : s.Agrees R t) (v : Value) : Agrees R (goAgain s v) (goAgain t v) := by
  refine .bind (.step _) fun l => ?_
  split
  · exact .fail _
  · split
    · exact .fail _
    · exact hs.calls.again _ v

theorem callNamed_agrees (hs : s.Agrees R t) (function : String) (args : List Value) :
    Agrees R (callNamed s function args) (callNamed t function args) := by
  refine .ite (.ite (.capturing (showSuper_agrees hs)) (.fail _))
    ((lookUp_agrees hs.env function).bind fun found => ?_)
  split
  · split
    · exact .capturing (goAgain_agrees hs _)
    · exact .fail _
  · exact hs.calls.call _ args
  · exact .fail _

theorem gatherArgs_agrees (hasNamed : Bool) {plain : Eval σ (List Value)}
    {plain' : Eval τ (List Value)} {named : Eval σ (List (String × Value))}
    {named' : Eval τ (List (String × Value))} (hplain : Agrees R plain plain')
    (hnamed : Agrees R named named') :
    Agrees R (gatherArgs hasNamed plain named) (gatherArgs hasNamed plain' named') :=
  hplain.bind fun _ => .ite (hnamed.bind fun _ => .pure _) (.pure _)

mutual

theorem eval_agrees (hs : s.Agrees R t) : ∀ e : Expr, Agrees R (eval s e) (eval t e)
  | .undefined => .pure _
  | .literal _ => .bind (.step _) fun _ => .pure _
  | .name id => .bind (.step _) fun _ => (lookUp_agrees hs.env id).bind fun _ => .pure _
  | .list items => .bind (.step _) fun _ => (evalAll_agrees hs items).bind fun _ => .pure _
  | .dict entries =>
    .bind (.step _) fun _ => (evalEntries_agrees hs entries).bind fun _ => .pure _
  | .negate line operand =>
    .bind (.step _) fun _ => (eval_agrees hs operand).bind fun _ => hs.onLine line (.lift _)
  | .not operand => .bind (.step _) fun _ => (eval_agrees hs operand).bind fun _ => .pure _
  | .binary line _ left right =>
    .bind (.step _) fun _ => (eval_agrees hs left).bind fun _ => .bind (.step _) fun _ =>
      (eval_agrees hs right).bind fun _ => .bind (.step _) fun _ => hs.onLine line (.lift _)
  | .both left right =>
    .bind (.step _) fun _ => (eval_agrees hs left).bind fun _ =>
      .ite (eval_agrees hs right) (.pure _)
  | .either left right =>
    .bind (.step _) fun _ => (eval_agrees hs left).bind fun _ =>
      .ite (.pure _) (eval_agrees hs right)
  | .choose condition yes no =>
    .bind (.step _) fun _ => (eval_agrees hs condition).bind fun _ =>
      .ite (eval_agrees hs yes) (eval_agrees hs no)
  | .filter line name subject args =>
    .bind (.step _) fun _ => (eval_agrees hs subject).bind fun _ => .bind (.step _) fun _ =>
      (gatherArgs_agrees _ (evalPlain_agrees hs args) (evalNamed_agrees hs args)).bind
        fun _ => hs.onLine line (applyFilter_agrees hs.env name _)
  | .test line name subject args =>
    .bind (.step _) fun _ => (eval_agrees hs subject).bind fun _ => .bind (.step _) fun _ =>
      (gatherArgs_agrees _ (evalPlain_agrees hs args) (evalNamed_agrees hs args)).bind
        fun _ => hs.onLine line (applyTest_agrees hs.env name _)
  | .member line subject _ =>
    .bind (.step _) fun _ => (eval_agrees hs subject).bind fun _ =>
      hs.onLine line (.step _)
  | .item line subject key =>
    .bind (.step _) fun _ => (eval_agrees hs subject).bind fun _ =>
      (eval_agrees hs key).bind fun _ => hs.onLine line (.step _)
  | .slice line subject start stop step =>
    .bind (.step _) fun _ => (eval_agrees hs subject).bind fun _ => .bind (.step _) fun _ =>
      (eval_agrees hs start).bind fun _ => (eval_agrees hs stop).bind fun _ =>
        (eval_agrees hs step).bind fun _ => hs.onLine line (.lift _)
  | .callName line function args =>
    .bind (.step _) fun _ =>
      (gatherArgs_agrees _ (evalPlain_agrees hs args) (evalNamed_agrees hs args)).bind
        fun args => hs.onLine line (callNamed_agrees hs function args)
  | .callMethod line subject method args =>
    .bind (.step _) fun _ => (eval_agrees hs subject).bind fun v =>
      (gatherArgs_agrees _ (evalPlain_agrees hs args) (evalNamed_agrees hs args)).bind
        fun args => hs.onLine line (callMethod_agrees hs v method args)
  | .callValue line subject args =>
    .bind (.step _) fun _ => (eval_agrees hs subject).bind fun v =>
      (gatherArgs_agrees _ (evalPlain_agrees hs args) (evalNamed_agrees hs args)).bind
        fun args => hs.onLine line (hs.calls.call v args)
  | .showBlock line name =>
    .bind (.step _) fun _ => hs.onLine line (.capturing (showBlock_agrees hs name))

theorem evalAll_agrees (hs : s.Agrees R t) :
    ∀ es : List Expr, Agrees R (evalAll s es) (evalAll t es)
  | [] => .pure _
  | e :: rest => (eval_agrees hs e).bind fun _ => (evalAll_agrees hs rest).bind fun _ => .pure _

theorem evalEntries_agrees (hs : s.Agrees R t) :
    ∀ entries : List (Expr × Expr), Agrees R (evalEntries s entries) (evalEntries t entries)
  | [] => .pure _
  | (key, value) :: rest =>
    (eval_agrees hs key).bind fun _ => (eval_agrees hs value).bind fun _ =>
      (evalEntries_agrees hs rest).bind fun _ => .pure _

theorem evalPlain_agrees (hs : s.Agrees R t) :
    ∀ args : List (ArgKind × Expr), Agrees R (evalPlain s args) (evalPlain t args)
  | [] => .pure _
  | (.plain, e) :: rest =>
    (eval_agrees hs e).bind fun _ => (evalPlain_agrees hs rest).bind fun _ => .pure _
  | (.spread, e) :: rest =>
    (eval_agrees hs e).bind fun _ => .bind (.lift _) fun _ =>
      (evalPlain_agrees hs rest).bind fun _ => .pure _
  | (.named _, _) :: rest => evalPlain_agrees hs rest
  | (.spreadNamed, _) :: rest => evalPlain_agrees hs rest

theorem evalNamed_agrees (hs : s.Agrees R t) :
    ∀ args : List (ArgKind × Expr), Agrees R (evalNamed s args) (evalNamed t args)
  | [] => .pure _
  | (.named _, e) :: rest =>
    (eval_agrees hs e).bind fun _ => (evalNamed_agrees hs rest).bind fun _ => .pure _
  | (.spreadNamed, e) :: rest =>
    (eval_agrees hs e).bind fun _ => .bind (.step _) fun _ => .bind (.lift _) fun _ =>
      (evalNamed_agrees hs rest).bind fun _ => .pure _
  | (.plain, _) :: rest => evalNamed_agrees hs rest
  | (.spread, _) :: rest => evalNamed_agrees hs rest

end

theorem evalArgs_agrees (hs : s.Agrees R t) (args : List (ArgKind × Expr)) :
    Agrees R (evalArgs s args) (evalArgs t args) :=
  gatherArgs_agrees _ (evalPlain_agrees hs args) (evalNamed_agrees hs args)

/-! ## §5 Statements -/

mutual

theorem bindTarget_agrees (hs : s.Agrees R t) :
    ∀ (target : Target) (v : Value), Agrees R (bindTarget s target v) (bindTarget t target v)
  | .name _, _ => .step _
  | .member line subject name, v => by
    refine (eval_agrees hs subject).bind fun owner => ?_
    split
    · exact .step _
    · exact hs.onLine line (.fail _)
  | .list line targets, v => by
    unfold bindTarget
    split
    · exact bindTargets_agrees hs line _ _ targets _
    · exact hs.onLine line (.fail _)
  | .impossible, _ => .fail _

theorem bindTargets_agrees (hs : s.Agrees R t) (line expected found : Nat) :
    ∀ (targets : List Target) (vs : List Value),
      Agrees R (bindTargets s line expected found targets vs)
        (bindTargets t line expected found targets vs)
  | [], [] => .pure ()
  | target :: targets, v :: vs =>
    .ite
      ((bindTarget_agrees hs target v).bind fun _ =>
        bindTargets_agrees hs line expected found targets vs)
      (hs.onLine line (.fail _))
  | [], _ :: _ => hs.onLine line (.fail _)
  | _ :: _, [] => hs.onLine line (.fail _)

end

theorem applyFilters_agrees (hs : s.Agrees R t) (v : Value) (calls : List FilterCall) :
    Agrees R (applyFilters s v calls) (applyFilters t v calls) := by
  induction calls generalizing v with
  | nil => exact .pure v
  | cons call rest ih =>
    exact .bind (.step _) fun _ => (evalArgs_agrees hs call.args).bind fun args =>
      (hs.onLine call.line (applyFilter_agrees hs.env call.name (v :: args))).bind fun v => ih v

theorem loopOver_agrees (id : Nat) {round : Value → Eval σ Unit} {round' : Value → Eval τ Unit}
    (h : ∀ v, Agrees R (round v) (round' v)) (items : List Value) :
    Agrees R (loopOver id round items) (loopOver id round' items) := by
  induction items with
  | nil => exact .step _
  | cons v rest ih =>
    exact .bind (.step _) fun _ => .bind (.step _) fun _ => (h v).bind fun _ => ih

theorem goThrough_agrees (again : Option Rounds) {round : Value → Eval σ Unit}
    {round' : Value → Eval τ Unit} (h : ∀ v, Agrees R (round v) (round' v))
    (items : List Value) : Agrees R (goThrough again round items) (goThrough again round' items) :=
  .bind (.step _) fun _ => .bind (.step _) fun id =>
    .bind (.inside _ (loopOver_agrees id h items)) fun _ => .pure _

theorem keepItems_agrees {test : Value → Eval σ Bool} {test' : Value → Eval τ Bool}
    (h : ∀ v, Agrees R (test v) (test' v)) (items : List Value) :
    Agrees R (keepItems test items) (keepItems test' items) := by
  induction items with
  | nil => exact .pure _
  | cons v rest ih =>
    exact .bind (.step _) fun _ => (h v).bind fun _ => ih.bind fun _ => .pure _

theorem loopItems_agrees (hs : s.Agrees R t) (line : Nat) (target : Target) (items : Expr)
    (condition : Option Expr) :
    Agrees R (loopItems s line target items condition)
      (loopItems t line target items condition) := by
  refine (eval_agrees hs items).bind fun _ => .bind (.step _) fun _ =>
    (hs.onLine line (.lift _)).bind fun items => ?_
  cases condition with
  | none => exact .pure items
  | some condition =>
    refine .bind (.step _) fun id =>
      .bind (.inside _ (keepItems_agrees (fun v => ?_) items)) fun _ => .pure _
    exact (bindTarget_agrees hs target v).bind fun _ =>
      (eval_agrees hs condition).bind fun _ => .pure _

theorem loadStmts_agrees (hs : s.Agrees R t) (file : String) :
    Agrees R (loadStmts s file) (loadStmts t file) := by
  unfold loadStmts
  rw [hs.env.load]
  refine .bind (.lift _) fun source => ?_
  split
  · exact .pure _
  · split
    · exact .throw _
    · exact .pure _

theorem embedFirst_agrees (hs : s.Agrees R t) (names : List Value) :
    Agrees R (embedFirst s names) (embedFirst t names) := by
  induction names with
  | nil => exact .pure _
  | cons name rest ih =>
    unfold embedFirst
    split
    · exact .fail _
    · next file _ =>
      refine (loadStmts_agrees hs file).bind fun stmts => ?_
      split
      · exact ih
      · exact (Agrees.embedded _ _ (.wrapped _ (hs.calls.run _))).bind fun _ => .pure _

theorem embedTemplate_agrees (hs : s.Agrees R t) (line : Nat) (template : Expr)
    (optional : Bool) :
    Agrees R (embedTemplate s line template optional)
      (embedTemplate t line template optional) := by
  refine (eval_agrees hs template).bind fun _ => .bind (.step _) fun v =>
    (hs.onLine line (embedFirst_agrees hs (templateNames v))).bind fun found => ?_
  exact .ite (.pure _) (hs.onLine line (.fail _))

theorem extendTemplate_agrees (hs : s.Agrees R t) (v : Value) :
    Agrees R (extendTemplate s v) (extendTemplate t v) := by
  refine .bind (.step _) fun m => .ite (.fail_bind _ _ _) ?_
  split
  · exact .fail _
  · refine .ite (.fail_bind _ _ _) ((loadStmts_agrees hs _).bind fun stmts => ?_)
    split
    · exact .fail _
    · exact .bind (.step _) fun _ => .step _

theorem enclose_eq (henv : env.Agrees R env') (cell : Nat) (names : List String) :
    enclose env cell names = enclose env' cell names := by
  induction names with
  | nil => rfl
  | cons name rest ih =>
    unfold enclose
    rw [lookUp_eq henv, ih]

theorem makeDefinition_agrees (hs : s.Agrees R t) (name : String) (params : List Param)
    (body : List Stmt) :
    Agrees R (Eval.ofStep (makeDefinition s name params body))
      (Eval.ofStep (makeDefinition t name params body)) := by
  unfold makeDefinition
  simp only [enclose_eq hs.env, hs.file]
  exact .step _

theorem lookUpAll_eq (henv : env.Agrees R env') (names : List String) :
    lookUpAll env names = lookUpAll env' names := by
  induction names with
  | nil => rfl
  | cons name rest ih =>
    unfold lookUpAll
    rw [lookUp_eq henv, ih]

theorem evalPassing_agrees (hs : s.Agrees R t) (params : List Param) (body : List Stmt)
    (call : Expr) :
    Agrees R (evalPassing s params body call) (evalPassing t params body call) := by
  have hargs (args : List (ArgKind × Expr)) := gatherArgs_agrees true (evalPlain_agrees hs args)
    ((evalNamed_agrees hs args).bind fun named =>
      (makeDefinition_agrees hs callerName params body).bind fun caller =>
        .pure (named ++ [(callerName, caller)]))
  unfold evalPassing
  split
  · exact .bind (.step _) fun _ => (hargs _).bind fun args =>
      hs.onLine _ (callNamed_agrees hs _ args)
  · exact .bind (.step _) fun _ => (eval_agrees hs _).bind fun v => (hargs _).bind fun args =>
      hs.onLine _ (callMethod_agrees hs v _ args)
  · exact .bind (.step _) fun _ => (eval_agrees hs _).bind fun v => (hargs _).bind fun args =>
      hs.onLine _ (hs.calls.call v args)
  · exact eval_agrees hs _

mutual

theorem exec_agrees (hs : s.Agrees R t) : ∀ stmt : Stmt, Agrees R (exec s stmt) (exec t stmt)
  | .raw _ => .bind (.step _) fun _ => .step _
  | .emit value =>
    .bind (.step _) fun _ => (eval_agrees hs value).bind fun v => .step _
  | .forLoop line target items condition recursive body otherwise => by
    have hround (v : Value) := (bindTarget_agrees hs target v).bind fun _ => execAll_agrees hs body
    unfold exec
    rw [hs.file]
    exact (loopItems_agrees hs line target items condition).bind fun items =>
      (goThrough_agrees _ hround items).bind fun _ => .ite (execAll_agrees hs otherwise) (.pure _)
  | .again line items =>
    .bind (.step _) fun _ => (eval_agrees hs items).bind fun v =>
      hs.onLine line (goAgain_agrees hs v)
  | .ifElse condition yes no =>
    .bind (.step _) fun _ => (eval_agrees hs condition).bind fun _ =>
      .ite (execAll_agrees hs yes) (execAll_agrees hs no)
  | .withBlock bindings body =>
    .bind (.inside {} ((execBindings_agrees hs bindings).bind fun _ => execAll_agrees hs body))
      fun _ => .pure _
  | .assign target value =>
    .bind (.step _) fun _ => (eval_agrees hs value).bind fun v => bindTarget_agrees hs target v
  | .capture target filters body =>
    (Agrees.capturing (execAll_agrees hs body)).bind fun text =>
      (applyFilters_agrees hs text filters).bind fun v => bindTarget_agrees hs target v
  | .filtered filters body =>
    (Agrees.capturing (execAll_agrees hs body)).bind fun text =>
      (applyFilters_agrees hs text filters).bind fun v => .step _
  | .embed line template optional => embedTemplate_agrees hs line template optional
  | .importModule line template target =>
    .bind (.step _) fun _ =>
      .bind (.inside {} (embedTemplate_agrees hs line template false)) fun _ =>
        .bind (.step _) fun _ => bindTarget_agrees hs target _
  | .importNames line template names => by
    unfold exec
    rw [lookUpAll_eq hs.env]
    exact .bind (.step _) fun _ =>
      .bind (.inside {} ((embedTemplate_agrees hs line template false).bind fun _ => .step _))
        fun _ => .bind (.step _) fun _ => .bind (.step _) fun _ => .pure _
  | .define name params body =>
    .bind (.step _) fun _ => (makeDefinition_agrees hs name params body).bind fun f => .step _
  | .callWith call params body => (evalPassing_agrees hs params body call).bind fun v => .step _
  | .run call => (eval_agrees hs call).bind fun _ => .pure _
  | .escaping line setting body =>
    .bind (.step _) fun _ => (eval_agrees hs setting).bind fun v =>
      (hs.onLine line (.lift _)).bind fun escaping => .escapingAs _ (execAll_agrees hs body)
  | .block line name _ => .bind (.step _) fun _ => hs.onLine line (showBlock_agrees hs name)
  | .showBlock line name => .bind (.step _) fun _ => hs.onLine line (showBlock_agrees hs name)
  | .showSuper line => .bind (.step _) fun _ => hs.onLine line (showSuper_agrees hs)
  | .extend line template =>
    (eval_agrees hs template).bind fun v => hs.onLine line (extendTemplate_agrees hs v)

theorem execAll_agrees (hs : s.Agrees R t) :
    ∀ stmts : List Stmt, Agrees R (execAll s stmts) (execAll t stmts)
  | [] => .pure _
  | stmt :: rest => (exec_agrees hs stmt).bind fun _ => execAll_agrees hs rest

theorem execBindings_agrees (hs : s.Agrees R t) :
    ∀ bindings : List (Target × Expr), Agrees R (execBindings s bindings) (execBindings t bindings)
  | [] => .pure ()
  | (target, value) :: rest =>
    (eval_agrees hs value).bind fun v => (bindTarget_agrees hs target v).bind fun _ =>
      execBindings_agrees hs rest

end

/-! ## §6 Calls and whole templates -/

theorem bindParams_agrees (hs : s.Agrees R t) (params : List (Param × Value)) :
    Agrees R (bindParams s params) (bindParams t params) := by
  induction params with
  | nil => exact .pure ()
  | cons param rest ih =>
    refine ih.bind fun _ => ?_
    split
    · exact (eval_agrees hs _).bind fun v => .step _
    · exact .step _

theorem callDefinition_agrees (henv : env.Agrees R env') {c : Calls σ} {d : Calls τ}
    (hcalls : c.Agrees R d) (f : Definition) (args : List Value) :
    Agrees R (callDefinition env c f args) (callDefinition env' d f args) := by
  have hs : (⟨env, c, f.file⟩ : Scene σ).Agrees R ⟨env', d, f.file⟩ := ⟨henv, hcalls, rfl⟩
  unfold callDefinition
  refine .ite (.fail_bind _ _ _) (.bind (.lift _) fun values => .bind (.lift _) fun _ =>
    .bind (.step _) fun m => .apart _ _ ?_)
  exact .bind (.step _) fun _ => (bindParams_agrees hs _).bind fun _ => execAll_agrees hs f.body

theorem callAny_agrees (henv : env.Agrees R env') {c : Calls σ} {d : Calls τ}
    (hcalls : c.Agrees R d) (f : Value) (args : List Value) :
    Agrees R (callAny env c f args) (callAny env' d f args) := by
  unfold callAny
  split
  · exact callDefinition_agrees henv hcalls _ args
  · exact .bind (.step _) fun args =>
      .ite (Builtin.call_agrees _ args) (henv.call hcalls _ args)
  all_goals exact .fail _

theorem runChain_agrees (henv : env.Agrees R env') {c : Calls σ} {d : Calls τ}
    (hcalls : c.Agrees R d) (more : Nat) (layer : Layer) :
    Agrees R (runChain env c more layer) (runChain env' d more layer) := by
  induction more generalizing layer with
  | zero => exact .fail _
  | succ more ih =>
    have hs : (⟨env, c, layer.file⟩ : Scene σ).Agrees R ⟨env', d, layer.file⟩ :=
      ⟨henv, hcalls, rfl⟩
    refine (execAll_agrees hs layer.body).bind fun _ => .bind (.step _) fun parent => ?_
    cases parent with
    | none => exact .pure _
    | some parent => exact ih parent

theorem runLayer_agrees (henv : env.Agrees R env') {c : Calls σ} {d : Calls τ}
    (hcalls : c.Agrees R d) (layer : Layer) :
    Agrees R (runLayer env c layer) (runLayer env' d layer) :=
  .unextended (runChain_agrees henv hcalls _ layer)

theorem runAgain_agrees (henv : env.Agrees R env') {c : Calls σ} {d : Calls τ}
    (hcalls : c.Agrees R d) (rounds : Rounds) (v : Value) :
    Agrees R (runAgain env c rounds v) (runAgain env' d rounds v) := by
  have hs : (⟨env, c, rounds.file⟩ : Scene σ).Agrees R ⟨env', d, rounds.file⟩ :=
    ⟨henv, hcalls, rfl⟩
  exact .bind (.step _) fun _ => .bind (.lift _) fun items => goThrough_agrees _
    (fun v => (bindTarget_agrees hs rounds.target v).bind fun _ => execAll_agrees hs rounds.body)
    items

theorem callsOf_agrees (henv : env.Agrees R env') (levels : Nat) :
    (callsOf env levels).Agrees R (callsOf env' levels) := by
  induction levels with
  | zero => exact ⟨fun _ _ => .fail _, fun _ => .fail _, fun _ _ => .fail _⟩
  | succ levels ih =>
    exact ⟨callAny_agrees henv ih, runLayer_agrees henv ih, runAgain_agrees henv ih⟩

/-- Results of templates that are the same up to the hosts that they leave behind, as far as they
are compared. -/
inductive SameResult (R : Comparison σ τ) :
    Except Fault (String × σ) → Except Fault (String × τ) → Prop
  | ok {text : String} {host : σ} {host' : τ} (h : R host host') :
      SameResult R (.ok (text, host)) (.ok (text, host'))
  | error (fault : Fault) : SameResult R (.error fault) (.error fault)
  | excused (h : R.lenient) (fault : Fault) (y : Except Fault (String × τ)) :
      SameResult R (.error fault) y

theorem Eval.SameOutcome.sameResult {x : Except Fault (Unit × Machine σ)}
    {y : Except Fault (Unit × Machine τ)} (h : Eval.SameOutcome R x y) :
    SameResult R (x >>= fun r => pure (r.2.output.written, r.2.host))
      (y >>= fun r => pure (r.2.output.written, r.2.host)) := by
  cases h with
  | ok h =>
    obtain ⟨h⟩ := h
    exact .ok h
  | error fault => exact .error fault
  | excused h => exact .excused h _ _

theorem Environment.Agrees.withLoad (henv : env.Agrees R env')
    (load : String → Except Cause (Option String)) :
    Environment.Agrees R { env with load } { env' with load } :=
  ⟨henv.functions, rfl, henv.call, henv.filter?, henv.method⟩

/-- A template has the same result in environments that agree, from hosts that are related. -/
theorem render_agrees (henv : env.Agrees R env') (fuel : Option Nat) (file source : String)
    (values : List (String × Value)) {host : σ} {host' : τ} (hhost : R host host') :
    SameResult R (render env fuel file source values host)
      (render env' fuel file source values host') := by
  unfold render
  rw [henv.load]
  cases read file source with
  | error fault => exact .error fault
  | ok stmts =>
    have henv := henv.withLoad fun name => if name = file then .ok (some source) else env'.load name
    exact (runLayer_agrees henv (callsOf_agrees henv _) ⟨file, stmts⟩ (.intro hhost)).sameResult

/-! ## §7 Engines -/

/-- The engine finds out about its surroundings only by calling them, and what a call does to the
state of the host it leaves as it is.  If a call fails, so does the template. -/
structure Engine.Uniform (engine : Engine) : Prop where
  agrees {σ τ : Type} {R : Comparison σ τ} {env : Environment σ} {env' : Environment τ}
    (henv : env.Agrees R env') (fuel : Option Nat) (file source : String)
    (values : List (String × Value)) {host : σ} {host' : τ} (hhost : R host host') :
    SameResult R (engine.render env fuel file source values host)
      (engine.render env' fuel file source values host')

theorem Engine.uniform_own : Engine.own.Uniform := ⟨render_agrees⟩

end SqlWorkflow.Template
