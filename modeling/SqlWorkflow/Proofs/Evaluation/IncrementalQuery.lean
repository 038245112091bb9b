import SqlWorkflow.Proofs.Evaluation.Guarded

/-!
# The query of new rows

An incremental table has a second query, for new rows alone.  The template of a file is run a second
time for it, on a copy of the draft as the first run left it.

- **§1** What a draft becomes when it is given the texts of the parts and finished.
- **§2** The two runs of a file.
- **§3** A file registers a query of new rows if and only if its table is incremental
  (`evaluate_incrementalQuery`).
- **§4** It is the query itself, unless the file asks in its first run what it is evaluated for,
  or calls for its name before that is settled, or captures more than one query
  (`evaluate_incrementalQuery_eq`).
- **§5** In scripts the method that gives the query gives the query of new rows as well
  (`queryMethod_incrementalQuery`), and a declaration does not (`declaredAction_incrementalQuery`).
-/

namespace SqlWorkflow.Evaluation

open Template

/-! ## §1 Giving the parts -/

/-- The texts of the queries among the parts. -/
def queryTexts (parts : List (Sql.Part × String)) : List String :=
  (parts.filter fun entry => entry.1 == .query).map (·.2)

theorem queryTexts_append (parts parts' : List (Sql.Part × String)) :
    queryTexts (parts ++ parts') = queryTexts parts ++ queryTexts parts' := by
  unfold queryTexts
  rw [List.filter_append, List.map_append]

theorem firstQuery_eq (parts : List (Sql.Part × String)) :
    Evaluator.firstQuery parts = (queryTexts parts).head?.getD "" := by
  unfold Evaluator.firstQuery queryTexts
  rw [List.head?_map, List.head?_filter]
  cases parts.find? fun entry => entry.1 == .query with
  | none => rfl
  | some entry => rfl

/-- The second table is the first one with the last of the texts as its query, if there is any. -/
structure Given (texts : List String) (d e : Draft) : Prop where
  kind_eq : e.kind = d.kind
  name_eq : e.name = d.name
  tableType_eq : e.tableType = d.tableType
  incrementalQuery_eq : e.incrementalQuery = d.incrementalQuery
  query_eq : e.query = texts.getLast?.or d.query

namespace Given

theorem refl (d : Draft) : Given [] d d :=
  ⟨rfl, rfl, rfl, rfl, rfl⟩

theorem trans {texts texts' : List String} {d e f : Draft} (h : Given texts d e)
    (h' : Given texts' e f) : Given (texts ++ texts') d f := by
  refine ⟨h'.kind_eq.trans h.kind_eq, h'.name_eq.trans h.name_eq,
    h'.tableType_eq.trans h.tableType_eq, h'.incrementalQuery_eq.trans h.incrementalQuery_eq, ?_⟩
  rw [h'.query_eq, h.query_eq, List.getLast?_append, Option.or_assoc]

/-- What most changes do: they have nothing to do with the queries. -/
theorem of_change {texts : List String} {f : Draft → Draft} {d e : Draft} {u : Unit}
    (h : Draft.apply (Draft.change f) d = (.ok u, e)) (hf : ∀ d : Draft, Given texts d (f d)) :
    Given texts d e := by
  obtain rfl := Draft.eq_of_apply_change_eq_ok h
  have hgiven := hf { d with stage := .configured }
  exact ⟨hgiven.kind_eq, hgiven.name_eq, hgiven.tableType_eq, hgiven.incrementalQuery_eq,
    hgiven.query_eq⟩

theorem givePart {part : Sql.Part} {text : String} {d e : Draft} {u : Unit}
    (h : Draft.apply (Evaluator.givePart .table part text) d = (.ok u, e)) :
    Given (queryTexts [(part, text)]) d e := by
  have hunless {f : Draft → Draft}
      (h : Draft.apply (if text.isEmpty then pure () else Draft.change f) d = (.ok u, e))
      (hf : ∀ d : Draft, Given [] d (f d)) : Given [] d e := by
    split at h
    · cases h
      exact refl _
    · exact of_change h hf
  cases part with
  | query => exact of_change h fun _ => ⟨rfl, rfl, rfl, rfl, rfl⟩
  | preOps | postOps | incrementalWhere => exact hunless h fun _ => ⟨rfl, rfl, rfl, rfl, rfl⟩
  | input =>
    cases h
    exact refl _

theorem giveParts {parts : List (Sql.Part × String)} {d e : Draft} {u : Unit}
    (h : Draft.apply (Evaluator.giveParts .table parts) d = (.ok u, e)) :
    Given (queryTexts parts) d e := by
  induction parts generalizing d with
  | nil =>
    cases h
    exact refl _
  | cons entry rest ih =>
    obtain ⟨part, text⟩ := entry
    obtain ⟨_, d', hfirst, hrest⟩ := Draft.exists_of_apply_bind_eq_ok h
    have hboth := (givePart hfirst).trans (ih hrest)
    rwa [← queryTexts_append] at hboth

end Given

/-- What a draft has to say as a table. -/
theorem payload_eq_table {d : Draft} {body : TableBody} (h : d.payload = .ok (.table body)) :
    d.kind = .table ∧ body.type = d.tableType ∧ d.query = some body.query ∧
      body.incrementalQuery = d.incrementalQuery := by
  unfold Draft.payload at h
  split at h
  next hkind =>
    split at h
    next query hquery =>
      cases h
      exact ⟨hkind, rfl, hquery, rfl⟩
    next => cases h
  -- The other kinds of actions have other payloads, or none.
  case h_2 | h_4 => cases h
  case h_3 | h_5 => split at h <;> cases h

theorem finish_eq_ok {d e : Draft} {r : Registration}
    (h : Draft.apply Draft.finish d = (.ok r, e)) :
    d.payload = .ok r.payload ∧ r.name = d.name := by
  obtain ⟨-, ⟨payload, hpayload, rfl⟩, -⟩ := Draft.eq_of_finish_ok h
  exact ⟨hpayload, rfl⟩

/-- A table that is given the texts of the parts and finished. -/
theorem registered_table {parts : List (Sql.Part × String)} {d e : Draft} {r : Registration}
    {body : TableBody}
    (h : Draft.apply (do Evaluator.giveParts d.kind parts; Draft.finish) d = (.ok r, e))
    (hbody : r.payload = .table body) :
    d.kind = .table ∧ r.name = d.name ∧ body.type = d.tableType ∧
      some body.query = (queryTexts parts).getLast?.or d.query ∧
      body.incrementalQuery = d.incrementalQuery := by
  obtain ⟨_, given, hparts, hfinish⟩ := Draft.exists_of_apply_bind_eq_ok h
  obtain ⟨hpayload, hname⟩ := finish_eq_ok hfinish
  obtain ⟨hkind, htype, hquery, hincremental⟩ := payload_eq_table (hbody ▸ hpayload)
  have hextends := extending_giveParts d.kind parts d
  rw [hparts] at hextends
  have htable : d.kind = .table := hextends.kind_eq.symm.trans hkind
  have hgiven := Given.giveParts (htable ▸ hparts)
  rw [hgiven.query_eq] at hquery
  exact ⟨htable, hname.trans hgiven.name_eq, htype.trans hgiven.tableType_eq, hquery.symm,
    hincremental.trans hgiven.incrementalQuery_eq⟩

/-! ## §2 Two runs -/

variable {engine : Engine}

/-- What the second run of a file does to the draft that the first run left. -/
theorem withIncrementalQuery_cases {e : Evaluator} {program : Sql.ActionProgram}
    {draft after : Draft} (hdraft : draft.stage ≠ .compiled)
    (h : e.withIncrementalQuery program draft engine = .ok after) :
    (draft.tableType = .incremental ∧ ∃ q, e.runTemplate e.actionEnvironment program
        { contexts := #[{ draft, incremental := true }] } engine = .ok q ∧
      after = { draft with
        stage := .configured
        incrementalQuery := some (Evaluator.firstQuery q.parts) }) ∨
      (¬(draft.kind = .table ∧ draft.tableType = .incremental) ∧ after = draft) := by
  unfold Evaluator.withIncrementalQuery at h
  split at h
  next htable =>
    obtain ⟨q, hrun, h⟩ := exists_of_bind_eq_ok h
    cases h
    refine .inl ⟨htable.2, q, hrun, ?_⟩
    unfold Draft.setIncrementalQuery
    rw [Draft.apply_change, if_neg hdraft]
  next hother =>
    cases h
    exact .inr ⟨hother, rfl⟩

/-- How a file comes to register an action: the first run leaves a draft without queries, which is
given the query of new rows and the parts of the first run. -/
structure Registers (engine : Engine) (e : Evaluator) (program : Sql.ActionProgram)
    (start : Draft) (p : Progress) (draft after : Draft) (r : Registration) : Prop where
  start_eq : Evaluator.startDraft program start.kind = .ok start
  run_eq : e.runTemplate e.actionEnvironment program { contexts := #[{ draft := start }] } engine =
    .ok p
  exists_context : ∃ ctx, p.contexts[0]? = some ctx ∧ ctx.draft = draft
  alongside : draft.Alongside start.kind Eq draft
  after_eq : e.withIncrementalQuery program draft engine = .ok after
  exists_final : ∃ final, Draft.apply (do Evaluator.giveParts after.kind p.parts; Draft.finish)
    after = (.ok r, final)

/-- Runs from the same draft cannot be told apart. -/
theorem guards_eq (allowed : Guard) : Guards allowed Eq Eq :=
  ⟨fun _ => rfl, fun _ h => h.symm, fun _ h => h.symm⟩

theorem alongside_start {kind : ActionKind} {names : String → String → Prop}
    {flags : Bool → Bool → Prop} {draft draft' : Draft} (h : draft.Alongside kind names draft')
    {i j : Bool} (hflag : flags i j) :
    Progress.Alongside kind names flags { contexts := #[{ draft, incremental := i }] }
      { contexts := #[{ draft := draft', incremental := j }] } :=
  ⟨rfl, rfl, rfl, _, _, rfl, rfl, hflag, h⟩

/-- A unit test registers no action. -/
theorem registrations_runTest {e : Evaluator} {program : Sql.ActionProgram} {output : FileOutput}
    (h : e.runTest program engine = .ok output) : output.registrations = [] := by
  obtain ⟨declared, -, h⟩ := exists_of_bind_eq_ok h
  dsimp only at h
  split at h
  all_goals
    obtain ⟨test, -, h⟩ := exists_of_bind_eq_ok h
    obtain ⟨p, -, h⟩ := exists_of_bind_eq_ok h
    cases h
    rfl

theorem exists_registers (hengine : engine.Uniform) {e : Evaluator} {program : Sql.ActionProgram}
    {output : FileOutput} (h : e.evaluate (.action program) engine = .ok output)
    {r : Registration} (hr : r ∈ output.registrations) :
    ∃ start p draft after, Registers engine e program start p draft after r := by
  cases hkind : program.type.kind? with
  | some kind =>
    simp only [Evaluator.evaluate, hkind] at h
    obtain ⟨start, hstart, hrest⟩ := exists_of_bind_eq_ok h
    obtain ⟨p, hrun, hrest⟩ := exists_of_bind_eq_ok hrest
    obtain ⟨after, hafter, hrest⟩ := exists_of_bind_eq_ok hrest
    obtain ⟨registration, hfinish, hrest⟩ := exists_of_bind_eq_ok hrest
    cases hrest
    obtain rfl := List.mem_singleton.1 hr
    replace hstart := eq_ok_of_mapError_eq_ok hstart
    obtain rfl := (startDraft_alongside hstart).kind_eq
    -- The run goes alongside itself, which says what it leaves of the draft.
    obtain ⟨p', hrun', halong⟩ := (guards_eq fun _ _ => true).runTemplate hengine
      (alongside_start (startDraft_alongside hstart) rfl) ((guardedEnvironment_all e).symm ▸ hrun)
    obtain rfl : p = p' := Except.ok.inj (hrun.symm.trans hrun')
    obtain ⟨ctx, ctx', hctx, hctx', -, hdraft⟩ := halong.exists_contexts
    obtain rfl : ctx = ctx' := Option.some.inj (hctx.symm.trans hctx')
    rw [hctx] at hafter
    exact ⟨start, p, ctx.draft, after, hstart, hrun, ⟨ctx, hctx, rfl⟩, hdraft, hafter,
      Draft.exists_apply_eq (eq_ok_of_mapError_eq_ok hfinish)⟩
  | none =>
    simp only [Evaluator.evaluate, hkind] at h
    rw [registrations_runTest h] at hr
    exact absurd hr List.not_mem_nil

/-! ## §3 Presence -/

/-- A file registers a query of new rows if and only if its table is incremental. -/
theorem evaluate_incrementalQuery (hengine : engine.Uniform) {e : Evaluator}
    {program : Sql.ActionProgram} {output : FileOutput}
    (h : e.evaluate (.action program) engine = .ok output) {r : Registration}
    (hr : r ∈ output.registrations) {body : TableBody} (hbody : r.payload = .table body) :
    body.incrementalQuery.isSome ↔ body.type = .incremental := by
  obtain ⟨start, p, draft, after, hregisters⟩ := exists_registers hengine h hr
  obtain ⟨final, hfinal⟩ := hregisters.exists_final
  obtain ⟨hkind, -, htype, -, hquery⟩ := registered_table hfinal hbody
  rw [hquery, htype]
  -- The first run leaves no query of new rows, so there is one only if there is a second run.
  rcases withIncrementalQuery_cases hregisters.alongside.unfinished hregisters.after_eq with
    ⟨hincremental, q, -, rfl⟩ | ⟨hother, rfl⟩
  · exact ⟨fun _ => hincremental, fun _ => rfl⟩
  · rw [hregisters.alongside.incrementalQuery_eq]
    exact ⟨fun hsome => absurd hsome Bool.noConfusion, fun htype => absurd ⟨hkind, htype⟩ hother⟩

/-! ## §4 Contents -/

/-- The program of a file that describes an action. -/
def actionOf? : Sql.Program → Option Sql.ActionProgram
  | .action program => some program
  | .script _ _ => none

theorem eq_action_of_actionOf? {compiled : Sql.Program} {program : Sql.ActionProgram}
    (h : actionOf? compiled = some program) : compiled = .action program := by
  cases compiled with
  | action program => exact congrArg Sql.Program.action (Option.some.inj h)
  | script filePath source => cases h

/-- The one action that a file registers, if it is a table. -/
def tableOf? (output : FileOutput) : Option (Registration × TableBody) :=
  match output.registrations with
  | [r] =>
    match r.payload with
    | .table body => some (r, body)
    | _ => none
  | _ => none

theorem mem_of_tableOf?_eq_some {output : FileOutput} {r : Registration} {body : TableBody}
    (h : tableOf? output = some (r, body)) :
    r ∈ output.registrations ∧ r.payload = .table body := by
  unfold tableOf? at h
  split at h
  next hregistrations =>
    split at h
    next hbody =>
      cases h
      exact ⟨hregistrations ▸ List.mem_singleton_self r, hbody⟩
    next => cases h
  next => cases h

/-- A run may not ask what it is for. -/
def unasked : Guard
  | .incremental, _ => false
  | _, _ => true

/-- A run may not ask what it is for, and may call for its name only if that is the given one. -/
def settled (name : String) : Guard
  | .incremental, _ => false
  | .ownName, .text s => s == name
  | .ownName, _ => false
  | _, _ => true

/-- The second run starts with the name that the first one ends with. -/
theorem guards_settled (name : String) :
    Guards (settled name) (fun s s' => s' = s ∨ s' = name) fun _ _ => True where
  refl s := .inl rfl
  name h hname := by
    obtain rfl := eq_of_beq h
    exact hname.elim id id
  incremental h := nomatch h

/-- The first run of the template of a file, in which calls of bindings are guarded. -/
def Evaluator.guardedRun (e : Evaluator) (allowed : Guard) (program : Sql.ActionProgram)
    (kind : ActionKind) (engine : Engine := .own) : Except EvaluationError Progress := do
  let start ← (startDraft program kind).mapError .action
  e.runTemplate (e.guardedEnvironment allowed) program { contexts := #[{ draft := start }] } engine

/-- If the first run of a file does not ask what it is for, calls for its name only when that is
settled, and captures no query before the last one, the query of new rows is the query.  So it is
whatever engine runs the template of the file. -/
theorem evaluate_incrementalQuery_eq (hengine : engine.Uniform) {e : Evaluator}
    {program : Sql.ActionProgram} {output : FileOutput}
    (h : e.evaluate (.action program) engine = .ok output) {r : Registration}
    (hr : r ∈ output.registrations) {body : TableBody} (hbody : r.payload = .table body)
    (htype : body.type = .incremental) {guarded : Progress}
    (hguarded : e.guardedRun (settled r.name) program .table engine = .ok guarded)
    (htexts : (queryTexts guarded.parts).head? = (queryTexts guarded.parts).getLast?) :
    body.incrementalQuery = some body.query := by
  obtain ⟨start, p, draft, after, hregisters⟩ := exists_registers hengine h hr
  obtain ⟨final, hfinal⟩ := hregisters.exists_final
  obtain ⟨hkind, hname, hafter, hquery, hincremental⟩ := registered_table hfinal hbody
  have hdraft := hregisters.alongside
  rcases withIncrementalQuery_cases hdraft.unfinished hregisters.after_eq with
    ⟨-, q, hsecond, rfl⟩ | ⟨hother, rfl⟩
  · obtain ⟨start', hstart', hrun⟩ := exists_of_bind_eq_ok hguarded
    replace hstart' := eq_ok_of_mapError_eq_ok hstart'
    have hstart := hregisters.start_eq
    rw [hdraft.kind_eq.symm.trans hkind] at hstart
    obtain rfl : start = start' := Except.ok.inj (hstart.symm.trans hstart')
    replace hstart := startDraft_alongside hstart
    have hdrafts : start.Alongside .table (fun s s' => s' = s ∨ s' = r.name) draft :=
      ⟨hstart.kind_eq, hkind, hstart.unfinished, hdraft.unfinished, hstart.query_eq,
        hstart.incrementalQuery_eq, .inr hname.symm⟩
    -- The guarded run goes alongside the first run, and alongside the second one.
    obtain ⟨p', hp', hfirst⟩ :=
      (guards_eq (settled r.name)).runTemplate hengine (alongside_start hstart rfl) hrun
    obtain rfl : p = p' := Except.ok.inj (hregisters.run_eq.symm.trans hp')
    obtain ⟨q', hq', hsecond'⟩ :=
      (guards_settled r.name).runTemplate hengine (alongside_start hdrafts trivial) hrun
    obtain rfl : q = q' := Except.ok.inj (hsecond.symm.trans hq')
    -- All three runs capture the same texts: the last of the first run is the query, and the first
    -- of the second run is the query of new rows.
    have hlast : (queryTexts guarded.parts).getLast? = some body.query := by
      rw [hquery, hfirst.parts_eq]
      change _ = (queryTexts guarded.parts).getLast?.or draft.query
      rw [hdraft.query_eq, Option.or_none]
    rw [hincremental, firstQuery_eq, hsecond'.parts_eq, htexts, hlast]
    rfl
  · exact absurd ⟨hkind, hafter.symm.trans htype⟩ hother

/-- The file calls for its name, which it does not set. -/
theorem evaluate_incrementalQuery_eq_named :
    let e : Evaluator := { project := { disk := { root := .folder [] }, path := "" } }
    let source := "/*jinja \x7b\x7btype('incremental')\x7d\x7d*/SELECT '$\x7bname()\x7d'"
    ∃ program output r body guarded, Sql.compile "t.sql" source = .ok (.action program) ∧
      e.evaluate (.action program) = .ok output ∧ r ∈ output.registrations ∧
      r.payload = .table body ∧ body.type = .incremental ∧
      e.guardedRun (settled r.name) program .table = .ok guarded ∧
      (queryTexts guarded.parts).head? = (queryTexts guarded.parts).getLast? ∧
      body.incrementalQuery = some body.query := by
  intro e source
  have h : (do
      let compiled ← (Sql.compile "t.sql" source).toOption
      let program ← actionOf? compiled
      let output ← (e.evaluate (.action program)).toOption
      let found ← tableOf? output
      let guarded ← (e.guardedRun (settled found.1.name) program .table).toOption
      return (found.2.type, queryTexts guarded.parts)) = some (.incremental, ["SELECT 't'"]) := by
    decide +kernel
  obtain ⟨compiled, hcompile, h⟩ := exists_of_toOption_bind_eq_some h
  obtain ⟨program, hprogram, h⟩ := Option.bind_eq_some_iff.1 h
  obtain ⟨output, houtput, h⟩ := exists_of_toOption_bind_eq_some h
  obtain ⟨⟨r, body⟩, hfound, h⟩ := Option.bind_eq_some_iff.1 h
  obtain ⟨guarded, hguarded, h⟩ := exists_of_toOption_bind_eq_some h
  obtain ⟨htype, htexts⟩ := Prod.mk.inj (Option.some.inj h)
  obtain ⟨hr, hbody⟩ := mem_of_tableOf?_eq_some hfound
  rw [eq_action_of_actionOf? hprogram] at hcompile
  have hone : (queryTexts guarded.parts).head? = (queryTexts guarded.parts).getLast? := by
    rw [htexts]
    rfl
  exact ⟨program, output, r, body, guarded, hcompile, houtput, hr, hbody, htype, hguarded, hone,
    evaluate_incrementalQuery_eq Engine.uniform_own houtput hr hbody htype hguarded hone⟩

/-- A file that calls for its name before it sets it, and one that captures a query of its own. -/
theorem exists_incrementalQuery_ne :
    let e : Evaluator := { project := { disk := { root := .folder [] }, path := "" } }
    let named := "SELECT $\x7bname()\x7d$\x7bconfig(type='incremental',name='u')\x7d"
    let captured := "SELECT 2$\x7btype('incremental')\x7d$\x7b'SELECT 1'|section('query')\x7d"
    ∀ source ∈ [named, captured], ∃ program guarded output r body,
      Sql.compile "t.sql" source = .ok (.action program) ∧
      e.guardedRun unasked program .table = .ok guarded ∧
      e.evaluate (.action program) = .ok output ∧ r ∈ output.registrations ∧
      r.payload = .table body ∧ body.type = .incremental ∧
      body.incrementalQuery ≠ some body.query := by
  intro e named captured source hsource
  have h : ∀ source ∈ [named, captured], (do
      let compiled ← (Sql.compile "t.sql" source).toOption
      let program ← actionOf? compiled
      let _ ← (e.guardedRun unasked program .table).toOption
      let output ← (e.evaluate (.action program)).toOption
      let found ← tableOf? output
      return (found.2.type, decide (found.2.incrementalQuery = some found.2.query))) =
      some (.incremental, false) := by decide +kernel
  replace h := h source hsource
  obtain ⟨compiled, hcompile, h⟩ := exists_of_toOption_bind_eq_some h
  obtain ⟨program, hprogram, h⟩ := Option.bind_eq_some_iff.1 h
  obtain ⟨guarded, hguarded, h⟩ := exists_of_toOption_bind_eq_some h
  obtain ⟨output, houtput, h⟩ := exists_of_toOption_bind_eq_some h
  obtain ⟨⟨r, body⟩, hfound, h⟩ := Option.bind_eq_some_iff.1 h
  obtain ⟨htype, hne⟩ := Prod.mk.inj (Option.some.inj h)
  obtain ⟨hr, hbody⟩ := mem_of_tableOf?_eq_some hfound
  rw [eq_action_of_actionOf? hprogram] at hcompile
  exact ⟨program, guarded, output, r, body, hcompile, hguarded, houtput, hr, hbody, htype,
    of_decide_eq_false hne⟩

/-! ## §5 Scripts -/

/-- Neither adding a statement nor setting the query has to do with the query of new rows. -/
theorem incrementalQuery_giveQuery {query : String} {d e : Draft} {u : Unit}
    (h : Draft.apply (giveQuery query) d = (.ok u, e)) :
    e.incrementalQuery = d.incrementalQuery := by
  obtain ⟨_, _, ⟨⟩, h⟩ := Draft.exists_of_apply_bind_eq_ok h
  split at h
  · obtain rfl := Draft.eq_of_apply_change_eq_ok h
    rfl
  · obtain rfl := Draft.eq_of_apply_change_eq_ok h
    rfl

theorem incrementalQuery_giveQueries {queries : List String} {d e : Draft} {u : Unit}
    (h : actAll (fun q => giveQuery (Text.trim q)) queries d = .ok (u, e)) :
    e.incrementalQuery = d.incrementalQuery := by
  induction queries generalizing d with
  | nil =>
    cases h
    rfl
  | cons query rest ih =>
    obtain ⟨⟨_, d'⟩, hfirst, hrest⟩ := exists_of_bind_eq_ok h
    exact (ih hrest).trans (incrementalQuery_giveQuery (act_ok hfirst))

theorem draftOf_alongside {what filePath name : String} {kind : ActionKind}
    {config : List (String × Json)} {d : Draft}
    (h : draftOf what kind filePath name config = .ok d) : d.Alongside kind Eq d := by
  obtain ⟨declared, hdeclared, h⟩ := exists_of_bind_eq_ok h
  have hdraft := Draft.declare_alongside (eq_ok_of_mapError_eq_ok hdeclared)
  split at h
  · cases h
    exact hdraft
  · obtain ⟨read, -, h⟩ := exists_of_bind_eq_ok h
    obtain ⟨⟨_, configured⟩, hconfigured, h⟩ := exists_of_bind_eq_ok h
    cases h
    exact (Draft.parallel_configure (fun _ => rfl) read).self hdraft (act_ok hconfigured)

/-- A declaration never gives a query of new rows, also if it gives an incremental table its
query. -/
theorem declaredAction_incrementalQuery {s : ScriptScope} {what : String} {kind : ActionKind}
    {args : List Value} {d : Draft} (h : declaredAction s what kind args = .ok d) :
    d.incrementalQuery = none := by
  unfold declaredAction at h
  split at h
  · cases h
  · obtain ⟨⟨name, config⟩, -, h⟩ := exists_of_bind_eq_ok h
    obtain ⟨declared, hdeclared, h⟩ := exists_of_bind_eq_ok h
    have hdraft := draftOf_alongside hdeclared
    unfold draftWith at h
    split at h
    · cases h
      exact hdraft.incrementalQuery_eq
    · split at h
      · -- A configuration has no key for the query of new rows.
        obtain ⟨read, -, h⟩ := exists_of_bind_eq_ok h
        obtain ⟨⟨_, configured⟩, hconfigured, h⟩ := exists_of_bind_eq_ok h
        cases h
        have hself := (Draft.parallel_configure (fun _ => rfl) read).self hdraft
          (act_ok hconfigured)
        exact hself.incrementalQuery_eq
      · -- The queries of a declaration are given as queries only.
        obtain ⟨queries, -, h⟩ := exists_of_bind_eq_ok h
        obtain ⟨⟨_, given⟩, hgiven, h⟩ := exists_of_bind_eq_ok h
        cases h
        exact (incrementalQuery_giveQueries hgiven).trans hdraft.incrementalQuery_eq

/-- An incremental table that a script gives its query at once. -/
example :
    let e : Evaluator := { project := { disk := { root := .folder [] }, path := "" } }
    let source := "\x7b\x7bpublish(\x7b'name':'t','type':'incremental'\x7d, 'SELECT 1')\x7d\x7d"
    ((e.evaluate (.script "t.jinja" source)).toOption.map fun output =>
      output.registrations.map (·.payload)) =
      some [.table { type := .incremental, query := "SELECT 1", incrementalQuery := none }] := by
  decide +kernel

/-- If a sequence of two steps succeeds, both do. -/
theorem exists_of_steps_eq_ok {α β : Type} {x : Host α} {f : α → Host β} {m n : Machine Progress}
    {b : β} (h : (x >>= f) m = .ok (b, n)) : ∃ a m', x m = .ok (a, m') ∧ f a m' = .ok (b, n) := by
  obtain ⟨⟨a, m'⟩, hfirst, hrest⟩ := exists_of_bind_eq_ok h
  exact ⟨a, m', hfirst, hrest⟩

/-- The draft of a context that was just described is what the description made of it. -/
theorem exists_of_described {α : Type} {index : Nat} {x : Act α} {m n : Machine Progress} {a : α}
    (h : Host.describe index x m = .ok (a, n)) {ctx : ActionContext}
    (hctx : n.host.contexts[index]? = some ctx) : ∃ d, x d = .ok (a, ctx.draft) := by
  obtain ⟨draft, hdraft, hhost⟩ := exists_of_describe_eq_ok h
  rw [hhost] at hctx
  change (m.host.contexts.setIfInBounds index _)[index]? = some ctx at hctx
  rw [Array.getElem?_setIfInBounds_self] at hctx
  split at hctx
  · cases hctx
    exact ⟨_, hdraft⟩
  · cases hctx

theorem incrementalQuery_setIncrementalQuery {query : String} {d e : Draft} {u : Unit}
    (h : Draft.apply (Draft.setIncrementalQuery query) d = (.ok u, e)) :
    e.incrementalQuery = some query := by
  obtain rfl := Draft.eq_of_apply_change_eq_ok h
  rfl

/-- A table that is incremental when its query was given by the method has a query of new rows. -/
theorem queryMethod_incrementalQuery {calls : Calls Progress} {index : Nat} {args : List Value}
    {m n : Machine Progress} {u : Unit} (h : queryMethod calls index args m = .ok (u, n))
    {ctx : ActionContext} (hctx : n.host.contexts[index]? = some ctx)
    (hkind : ctx.draft.kind = .table) (htype : ctx.draft.tableType = .incremental) :
    ctx.draft.incrementalQuery.isSome := by
  obtain ⟨before, m₀, -, h⟩ := exists_of_steps_eq_ok h
  dsimp only at h
  split at h
  · -- Declarations and notebooks have no query.
    obtain ⟨_, _, hthrow, -⟩ := exists_of_steps_eq_ok h
    cases hthrow
  · split at h
    · cases h
    · obtain ⟨value, m₁, -, h⟩ := exists_of_steps_eq_ok h
      obtain ⟨queries, m₂, -, h⟩ := exists_of_steps_eq_ok h
      obtain ⟨_, m₃, -, h⟩ := exists_of_steps_eq_ok h
      obtain ⟨given, m₄, hgiven, h⟩ := exists_of_steps_eq_ok h
      cases hgiven
      split at h
      · -- The last step gives the query of new rows.
        obtain ⟨copy, m₅, -, h⟩ := exists_of_steps_eq_ok h
        obtain ⟨value, m₆, -, h⟩ := exists_of_steps_eq_ok h
        obtain ⟨queries, m₇, -, h⟩ := exists_of_steps_eq_ok h
        obtain ⟨draft, hdraft⟩ := exists_of_described h hctx
        rw [incrementalQuery_setIncrementalQuery (act_ok hdraft)]
        rfl
      next hother =>
        cases h
        rw [hctx] at hother
        exact absurd ⟨hkind, htype⟩ hother

end SqlWorkflow.Evaluation
