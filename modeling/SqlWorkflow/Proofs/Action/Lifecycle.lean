import SqlWorkflow.Outcome
import SqlWorkflow.Proofs.Action.Changes

/-!
# The life of a draft

A file declares a draft, makes calls on it in any order, and finishes it.  Calls may fail, and the
file may go on after that.  What counts in the end are the calls that succeeded: lists hold what
these calls added, in order, and everything else is what the last of them said
(`Draft.lifecycle`).

- **§1** Calls, and what each of them says.
- **§2** What one call does (`Draft.outcome_perform`), and how far a configuration comes that is
  refused (`Draft.configured_configure`).
- **§3** Sequences of calls.
- **§4** What the calls that succeeded amount to.
- **§5** The main statement.
-/

namespace SqlWorkflow.Draft

/-! ## §1 Calls -/

/-- A call that says one thing about the action. -/
inductive Setter where
  | setType (type : TableType)
  | setQuery (query : String)
  | setIncrementalQuery (query : String)
  | addQuery (query : String)
  | addDependency (reference : TargetRef)
  | setSchema (schema : String)
  | setDatabase (database : String)
  | setDescription (description : String)
  | setColumn (column : String) (doc : ColumnDoc)
  | addTags (tags : List String)
  | setDisabled (disabled : Bool)
  | addPreOp (statement : String)
  | addPostOp (statement : String)
  | setWhere (clause : String)
  | setProtected (isProtected : Bool)
  | setHasOutput (hasOutput : Bool)
  | setUniqueKey (uniqueKey : List String)
  | setBigquery (options : BigQueryOptions)
  | setNotebookContents (contents : String)

/-- The change that a call makes. -/
def Setter.change : Setter → Change Unit
  | .setType type => Draft.setType type
  | .setQuery query => Draft.setQuery query
  | .setIncrementalQuery query => Draft.setIncrementalQuery query
  | .addQuery query => Draft.addQuery query
  | .addDependency reference => Draft.addDependency reference
  | .setSchema schema => Draft.setSchema schema
  | .setDatabase database => Draft.setDatabase database
  | .setDescription description => Draft.setDescription description
  | .setColumn column doc => Draft.setColumn column doc
  | .addTags tags => Draft.addTags tags
  | .setDisabled disabled => Draft.setDisabled disabled
  | .addPreOp statement => Draft.addPreOp statement
  | .addPostOp statement => Draft.addPostOp statement
  | .setWhere clause => Draft.setWhere clause
  | .setProtected isProtected => Draft.setProtected isProtected
  | .setHasOutput hasOutput => Draft.setHasOutput hasOutput
  | .setUniqueKey uniqueKey => Draft.setUniqueKey uniqueKey
  | .setBigquery options => Draft.setBigquery options
  | .setNotebookContents contents => Draft.setNotebookContents contents

/-- A call of any sort. -/
inductive Call where
  | set (setter : Setter)
  | configure (config : ActionConfig)
  | finish

/-- What a call does to a draft; only finishing it gives something back. -/
def Call.perform : Call → Change (Option Registration)
  | .set setter => do
    setter.change
    return none
  | .configure config => do
    Draft.configure config
    return none
  | .finish => do
    let r ← Draft.finish
    return some r

/-- Is the call one to finish the draft? -/
def Call.isFinish : Call → Bool
  | .finish => true
  | _ => false

/-- Does the call apply a configuration? -/
def Call.isConfigure : Call → Bool
  | .configure _ => true
  | _ => false

/-- What a call says about an action: the values that it assigns and what it adds to lists. -/
structure Content where
  name : Option String := none
  schema : Option String := none
  database : Option String := none
  tableType : Option TableType := none
  description : Option String := none
  columns : List (String × ColumnDoc) := []
  tags : List String := []
  disabled : Option Bool := none
  dependencies : List TargetRef := []
  query : Option String := none
  incrementalQuery : Option String := none
  queries : List String := []
  preOps : List String := []
  postOps : List String := []
  incrementalWhere : Option String := none
  isProtected : Option Bool := none
  hasOutput : Option Bool := none
  uniqueKey : Option (List String) := none
  assertions : Option TableAssertions := none
  bigquery : Option BigQueryOptions := none
  notebookContents : Option String := none

/-- What a call says that says one thing. -/
def Setter.content : Setter → Content
  | .setType type => { tableType := some type }
  | .setQuery query => { query := some query }
  | .setIncrementalQuery query => { incrementalQuery := some query }
  | .addQuery query => { queries := [query] }
  | .addDependency reference => { dependencies := [reference] }
  | .setSchema schema => { schema := some schema }
  | .setDatabase database => { database := some database }
  | .setDescription description => { description := some description }
  | .setColumn column doc => { columns := [(column, doc)] }
  | .addTags tags => { tags }
  | .setDisabled disabled => { disabled := some disabled }
  | .addPreOp statement => { preOps := [statement] }
  | .addPostOp statement => { postOps := [statement] }
  | .setWhere clause => { incrementalWhere := some clause }
  | .setProtected isProtected => { isProtected := some isProtected }
  | .setHasOutput hasOutput => { hasOutput := some hasOutput }
  | .setUniqueKey uniqueKey => { uniqueKey := some uniqueKey }
  | .setBigquery options => { bigquery := some options }
  | .setNotebookContents contents => { notebookContents := some contents }

/-- What a configuration says: tags, dependencies and columns are added, all else is assigned. -/
def contentOf (config : ActionConfig) : Content where
  name := config.name
  schema := config.schema
  database := config.database
  tableType := config.type.bind ConfigType.tableType?
  description := config.description
  columns := (config.columns.map Dict.entries).getD []
  tags := config.tags.getD []
  disabled := config.disabled
  dependencies := (config.dependencies.getD []).map DependencySpec.reference
  isProtected := config.isProtected
  hasOutput := config.hasOutput
  uniqueKey := config.uniqueKey
  assertions := config.assertions
  bigquery := config.bigquery

/-- What a call says; finishing a draft says nothing. -/
def Call.content : Call → Content
  | .set setter => setter.content
  | .configure config => contentOf config
  | .finish => {}

/-- The draft after something has been said about it. -/
def taking (d : Draft) (c : Content) : Draft :=
  { d with
    stage := .configured
    name := c.name.getD d.name
    schema := c.schema.or d.schema
    database := c.database.or d.database
    tableType := c.tableType.getD d.tableType
    descriptor :=
      { description := c.description.or d.descriptor.description
        columns := d.descriptor.columns.extend c.columns }
    tags := d.tags ++ c.tags
    disabled := c.disabled.getD d.disabled
    dependencies := d.dependencies ++ c.dependencies
    query := c.query.or d.query
    incrementalQuery := c.incrementalQuery.or d.incrementalQuery
    queries := d.queries ++ c.queries
    preOps := d.preOps ++ c.preOps
    postOps := d.postOps ++ c.postOps
    incrementalWhere := c.incrementalWhere.or d.incrementalWhere
    isProtected := c.isProtected.getD d.isProtected
    hasOutput := c.hasOutput.getD d.hasOutput
    uniqueKey := c.uniqueKey.getD d.uniqueKey
    assertions := c.assertions.getD d.assertions
    bigquery := c.bigquery.or d.bigquery
    notebookContents := c.notebookContents.or d.notebookContents }

theorem extends_taking (d : Draft) (c : Content) : d.Extends (d.taking c) :=
  ⟨rfl, List.subset_append_left _ _⟩

/-! ## §2 One call -/

/-- The ways a call on a draft can go: its outcome, and the draft after it. -/
inductive Outcome (d : Draft) : Call → Except ActionError (Option Registration) → Draft → Prop where
  /-- A finished draft takes no call. -/
  | isSealed {call : Call} (hstage : d.stage = .compiled) :
      Outcome d call (.error (.isSealed d.name)) d
  | accepted {call : Call} (hstage : d.stage ≠ .compiled) (hcall : call.isFinish = false) :
      Outcome d call (.ok none) (d.taking call.content)
  /-- A setter that does not fit the kind of action. -/
  | refused {setter : Setter} (hstage : d.stage ≠ .compiled) (fault : ConfigFault) :
      Outcome d (.set setter) (.error (.invalid d.name fault)) { d with stage := .configured }
  /-- A configuration is applied key by key; one that is refused may have set the table type. -/
  | misconfigured {config : ActionConfig} (hstage : d.stage ≠ .compiled) (fault : ConfigFault)
      (tableType : TableType) :
      Outcome d (.configure config) (.error (.invalid d.name fault))
        { d with stage := .configured, tableType }
  | finished (hstage : d.stage ≠ .compiled) {payload : Payload}
      (hpayload : d.payload = .ok payload) :
      Outcome d .finish (.ok (some (d.registration payload))) { d with stage := .compiled }
  /-- The draft lacks something that its kind of action needs. -/
  | unfinished (hstage : d.stage ≠ .compiled) {fault : ConfigFault}
      (hpayload : d.payload = .error fault) :
      Outcome d .finish (.error (.invalid d.name fault)) d

/-- Every setter begins with the question whether the draft is finished. -/
theorem Setter.exists_eq_touch_bind (s : Setter) : ∃ f, s.change = touch >>= f := by
  cases s <;> exact ⟨_, rfl⟩

theorem Setter.apply_change_of_compiled (s : Setter) {d : Draft} (h : d.stage = .compiled) :
    apply s.change d = (.error (.isSealed d.name), d) := by
  obtain ⟨f, hf⟩ := s.exists_eq_touch_bind
  rw [hf, apply_touch_bind, if_pos h]

/-- A change for one kind of action only. -/
theorem apply_ofKind (kind : ActionKind) (fault : ActionKind → ConfigFault) (f : Draft → Draft)
    {d : Draft} (h : d.stage ≠ .compiled) :
    apply (do
        touch
        let k := (← get).kind
        if k ≠ kind then refuse (fault k) else modify f) d =
      if d.kind = kind then (.ok (), f { d with stage := .configured })
      else (.error (.invalid d.name (fault d.kind)), { d with stage := .configured }) := by
  rw [apply_touch_bind, if_neg h, apply_get_bind]
  dsimp only
  by_cases hkind : d.kind = kind
  · rw [if_neg (fun hne => hne hkind), if_pos hkind]
    rfl
  · rw [if_pos hkind, if_neg hkind]
    rfl

/-- What is wrong with a call that says one thing, if it does not fit the kind of action. -/
def Setter.fault? : Setter → ActionKind → Option ConfigFault
  | .setType _, kind => if kind = .table then none else some (.noTableType kind)
  | .setHasOutput _, kind => if kind = .operation then none else some .outputFlag
  | _, _ => none

/-- A setter puts in what it says, unless it does not fit the kind of action. -/
theorem Setter.apply_change_of_ne_compiled (s : Setter) {d : Draft} (h : d.stage ≠ .compiled) :
    apply s.change d =
      match s.fault? d.kind with
      | none => (.ok (), d.taking s.content)
      | some fault => (.error (.invalid d.name fault), { d with stage := .configured }) := by
  have hchange : ∀ f : Draft → Draft, f { d with stage := .configured } = d.taking s.content →
      apply (Draft.change f) d = (.ok (), d.taking s.content) := by
    intro f hf
    rw [Draft.apply_change, if_neg h, hf]
  -- Only two setters ask for the kind of action.
  cases s
  case setType type =>
    refine (apply_ofKind .table .noTableType (fun d => { d with tableType := type }) h).trans ?_
    rw [fault?]
    split
    · simp [taking, Setter.content]
    · rfl
  case setHasOutput hasOutput =>
    refine (apply_ofKind .operation (fun _ => .outputFlag) (fun d => { d with hasOutput })
      h).trans ?_
    rw [fault?]
    split
    · simp [taking, Setter.content]
    · rfl
  case setColumn column doc =>
    refine hchange _ ?_
    simp [taking, Setter.content]
    rfl
  all_goals
    refine hchange _ ?_
    simp [taking, Setter.content]

theorem apply_configureType (type : ConfigType) (d : Draft) :
    apply (configureType type) d =
      if type.kind? = some d.kind then
        (.ok (), { d with tableType := type.tableType?.getD d.tableType })
      else (.error (.invalid d.name (.wrongType type (.action d.kind))), d) := by
  unfold configureType
  rw [apply_get_bind]
  dsimp only
  by_cases hkind : type.kind? = some d.kind
  · rw [if_neg (fun hne => hne hkind), if_pos hkind]
    cases type.tableType? <;> rfl
  · rw [if_pos hkind, if_neg hkind]
    rfl

/-- No setter takes a dependency back. -/
theorem extending_setter (s : Setter) : Extending s.change := by
  intro d
  by_cases h : d.stage = .compiled
  · rw [s.apply_change_of_compiled h]
    exact .refl d
  · rw [s.apply_change_of_ne_compiled h]
    cases s.fault? d.kind with
    | none => exact d.extends_taking s.content
    | some fault => exact ⟨rfl, List.Subset.refl _⟩

/-- What a configuration does after it has set the type. -/
def configureNamed (config : ActionConfig) : Change Unit := do
  match config.name with
  | some name => if name.isEmpty then refuse .emptyName else modify fun d => { d with name }
  | none => pure ()
  modify fun d => d.withOptions config

theorem apply_configureNamed (config : ActionConfig) (d : Draft) :
    apply (configureNamed config) d =
      if config.name = some "" then (.error (.invalid d.name .emptyName), d)
      else (.ok (), { d with name := config.name.getD d.name }.withOptions config) := by
  unfold configureNamed
  dsimp only
  split
  · next name hname =>
    by_cases hempty : name = ""
    · subst hempty
      rw [hname]
      rfl
    · rw [hname, if_neg (by simpa using hempty), if_neg (by simpa using hempty)]
      rfl
  · next hname =>
    rw [hname, if_neg (by simp)]
    rfl

/-- The options of a configuration are what it says besides the table type and the name. -/
theorem withOptions_eq (d : Draft) (config : ActionConfig) (tableType : TableType)
    (htype : tableType = (config.type.bind ConfigType.tableType?).getD d.tableType) :
    ({ d with stage := .configured, tableType, name := config.name.getD d.name } :
      Draft).withOptions config = d.taking (contentOf config) := by
  cases hcolumns : config.columns <;> simp [withOptions, taking, contentOf, hcolumns, htype]

/-- The parts of a configuration are applied one after the other. -/
theorem apply_configure (config : ActionConfig) (d : Draft) :
    apply (configure config) d =
      if d.stage = .compiled then (.error (.isSealed d.name), d)
      else if config.dataset.isSome then
        (.error (.invalid d.name .dataset), { d with stage := .configured })
      else
        match config.type with
        | none => apply (configureNamed config) { d with stage := .configured }
        | some type =>
          apply (do configureType type; configureNamed config) { d with stage := .configured } := by
  unfold configure
  rw [apply_touch_bind]
  dsimp only
  by_cases h : d.stage = .compiled
  · rw [if_pos h, if_pos h]
  · rw [if_neg h, if_neg h]
    by_cases hdataset : config.dataset.isSome = true
    · rw [if_pos hdataset, if_pos hdataset]
      rfl
    · rw [if_neg hdataset, if_neg hdataset]
      cases config.type <;> rfl

/-- Is the kind of action the one that the configuration is for, if it says so? -/
def TypeFits (config : ActionConfig) (kind : ActionKind) : Prop :=
  ∀ type, config.type = some type → type.kind? = some kind

/-- The ways a configuration of a draft can go: the checks in the order in which they are made, each
with the draft that is there when it fails. -/
inductive Configured (config : ActionConfig) (d : Draft) :
    Except ActionError Unit → Draft → Prop where
  | isSealed (hstage : d.stage = .compiled) : Configured config d (.error (.isSealed d.name)) d
  | dataset (hstage : d.stage ≠ .compiled) (hdataset : config.dataset.isSome = true) :
      Configured config d (.error (.invalid d.name .dataset)) { d with stage := .configured }
  | wrongType (hstage : d.stage ≠ .compiled) (hdataset : ¬ config.dataset.isSome = true)
      {type : ConfigType} (htype : config.type = some type) (hkind : type.kind? ≠ some d.kind) :
      Configured config d (.error (.invalid d.name (.wrongType type (.action d.kind))))
        { d with stage := .configured }
  /-- The name is looked at when the table type has been set. -/
  | emptyName (hstage : d.stage ≠ .compiled) (hdataset : ¬ config.dataset.isSome = true)
      (hkind : TypeFits config d.kind) (hname : config.name = some "") {tableType : TableType}
      (htype : tableType = (config.type.bind ConfigType.tableType?).getD d.tableType) :
      Configured config d (.error (.invalid d.name .emptyName))
        { d with stage := .configured, tableType }
  | applied (hstage : d.stage ≠ .compiled) (hdataset : ¬ config.dataset.isSome = true)
      (hkind : TypeFits config d.kind) (hname : config.name ≠ some "") :
      Configured config d (.ok ()) (d.taking (contentOf config))

/-- Once the table type is set, only the name can be wrong. -/
theorem configured_configureNamed {config : ActionConfig} {d : Draft} (hstage : d.stage ≠ .compiled)
    (hdataset : ¬ config.dataset.isSome = true) (hkind : TypeFits config d.kind)
    {tableType : TableType}
    (htype : tableType = (config.type.bind ConfigType.tableType?).getD d.tableType) :
    Configured config d
      (apply (configureNamed config) { d with stage := .configured, tableType }).1
      (apply (configureNamed config) { d with stage := .configured, tableType }).2 := by
  rw [apply_configureNamed]
  split
  · next hname => exact .emptyName hstage hdataset hkind hname htype
  · next hname =>
    rw [withOptions_eq d config tableType htype]
    exact .applied hstage hdataset hkind hname

/-- Every configuration goes one of these ways. -/
theorem configured_configure (config : ActionConfig) (d : Draft) :
    Configured config d (apply (configure config) d).1 (apply (configure config) d).2 := by
  rw [apply_configure]
  by_cases hstage : d.stage = .compiled
  · rw [if_pos hstage]
    exact .isSealed hstage
  rw [if_neg hstage]
  by_cases hdataset : config.dataset.isSome = true
  · rw [if_pos hdataset]
    exact .dataset hstage hdataset
  rw [if_neg hdataset]
  -- Without a type, or with one that fits, the name is what is left to be looked at.
  cases htype : config.type with
  | none =>
    have hkind : TypeFits config d.kind := by simp [TypeFits, htype]
    exact configured_configureNamed hstage hdataset hkind (by rw [htype]; rfl)
  | some type =>
    dsimp only
    rw [apply_bind, apply_configureType]
    dsimp only
    split
    · next htyped =>
      split at htyped
      · next hkind =>
        cases htyped
        exact configured_configureNamed hstage hdataset (by simpa [TypeFits, htype] using hkind)
          (by rw [htype]; rfl)
      · cases htyped
    · next htyped =>
      split at htyped
      · cases htyped
      · next hkind =>
        cases htyped
        exact .wrongType hstage hdataset htype hkind

theorem configured_of_apply_configure {config : ActionConfig} {d e : Draft}
    {outcome : Except ActionError Unit} (h : apply (configure config) d = (outcome, e)) :
    Configured config d outcome e := by
  have hconfigured := configured_configure config d
  rw [h] at hconfigured
  exact hconfigured

/-- Neither does a configuration take a dependency back, however far it comes. -/
theorem extending_configure (config : ActionConfig) : Extending (configure config) := by
  intro d
  rcases hconfigure : apply (configure config) d with ⟨outcome, e⟩
  cases configured_of_apply_configure hconfigure with
  | isSealed => exact .refl d
  | applied => exact d.extends_taking (contentOf config)
  | dataset | wrongType | emptyName => exact ⟨rfl, List.Subset.refl _⟩

/-- A configuration that succeeds puts in what it says. -/
theorem apply_configure_eq_ok_iff {config : ActionConfig} {d e : Draft}
    (hstage : d.stage ≠ .compiled) :
    apply (configure config) d = (.ok (), e) ↔
      (config.dataset = none ∧ TypeFits config d.kind ∧ config.name ≠ some "") ∧
        e = d.taking (contentOf config) := by
  constructor
  · intro h
    cases configured_of_apply_configure h with
    | applied _ hdataset hkind hname =>
      exact ⟨⟨by simpa using hdataset, hkind, hname⟩, rfl⟩
  · rintro ⟨⟨hdataset, hkind, hname⟩, rfl⟩
    rcases hconfigure : apply (configure config) d with ⟨outcome, f⟩
    cases configured_of_apply_configure hconfigure with
    | isSealed hstage' => exact absurd hstage' hstage
    | dataset _ hdataset' => simp [hdataset] at hdataset'
    | wrongType _ _ htype hkind' => exact absurd (hkind _ htype) hkind'
    | emptyName _ _ _ hname' => exact absurd hname' hname
    | applied => rfl

/-- Nothing can be done with a finished draft. -/
theorem apply_perform_of_compiled (call : Call) {d : Draft} (h : d.stage = .compiled) :
    apply call.perform d = (.error (.isSealed d.name), d) := by
  cases call with
  | set setter =>
    rw [Call.perform, apply_bind, setter.apply_change_of_compiled h]
  | configure config =>
    rw [Call.perform, apply_bind, apply_configure, if_pos h]
  | finish => rw [Call.perform, apply_bind, apply_finish, if_pos h]

/-- Every call goes one of these ways. -/
theorem outcome_perform (call : Call) (d : Draft) :
    Outcome d call (apply call.perform d).1 (apply call.perform d).2 := by
  by_cases h : d.stage = .compiled
  · rw [apply_perform_of_compiled call h]
    exact .isSealed h
  cases call with
  | set setter =>
    rw [Call.perform, apply_bind, setter.apply_change_of_ne_compiled h]
    cases setter.fault? d.kind with
    | none => exact .accepted h rfl
    | some fault => exact .refused h fault
  | configure config =>
    rw [Call.perform, apply_bind]
    rcases hconfigure : apply (configure config) d with ⟨outcome, e⟩
    cases configured_of_apply_configure hconfigure with
    | isSealed hstage => exact absurd hstage h
    | dataset => exact .misconfigured h .dataset d.tableType
    | wrongType => exact .misconfigured h _ d.tableType
    | emptyName => exact .misconfigured h .emptyName _
    | applied => exact .accepted h rfl
  | finish =>
    rw [Call.perform, apply_bind, apply_finish, if_neg h]
    cases hpayload : d.payload with
    | error fault => exact .unfinished h hpayload
    | ok payload => exact .finished h hpayload

theorem outcome_of_apply_perform {call : Call} {d e : Draft}
    {outcome : Except ActionError (Option Registration)}
    (h : apply call.perform d = (outcome, e)) : Outcome d call outcome e := by
  have hstep := outcome_perform call d
  rw [h] at hstep
  exact hstep

/-! ## §3 Sequences of calls -/

/-- The draft after calls, one after the other, whether they succeed or fail. -/
def after (d : Draft) (calls : List Call) : Draft :=
  calls.foldl (fun d call => (apply call.perform d).2) d

/-- The calls that succeed. -/
def accepted (d : Draft) : List Call → List Call
  | [] => []
  | call :: calls =>
    let (outcome, e) := apply call.perform d
    if outcome.isOk then call :: accepted e calls else accepted e calls

/-- Does every configuration among the calls succeed? -/
def acceptsConfigurations (d : Draft) : List Call → Bool
  | [] => true
  | call :: calls =>
    let (outcome, e) := apply call.perform d
    (!call.isConfigure || outcome.isOk) && acceptsConfigurations e calls

theorem after_of_compiled {d : Draft} (h : d.stage = .compiled) (calls : List Call) :
    d.after calls = d := by
  induction calls with
  | nil => rfl
  | cons call calls ih =>
    rw [after, List.foldl_cons, apply_perform_of_compiled call h]
    exact ih

theorem accepted_of_compiled {d : Draft} (h : d.stage = .compiled) (calls : List Call) :
    d.accepted calls = [] := by
  induction calls with
  | nil => rfl
  | cons call calls ih =>
    rw [accepted, apply_perform_of_compiled call h]
    exact ih

/-- A draft is finished at most once. -/
theorem countP_isFinish_accepted_le_one (d : Draft) (calls : List Call) :
    (d.accepted calls).countP Call.isFinish ≤ 1 := by
  induction calls generalizing d with
  | nil => exact Nat.zero_le 1
  | cons call calls ih =>
    rcases hresult : apply call.perform d with ⟨outcome, e⟩
    simp only [accepted, hresult]
    cases outcome_of_apply_perform hresult with
    | accepted _ hcall =>
      simp only [Except.isOk, Except.toBool, if_true, List.countP_cons, hcall]
      exact ih _
    | finished =>
      simp only [Except.isOk, Except.toBool, if_true]
      -- After the call that finishes, none is accepted.
      rw [accepted_of_compiled rfl]
      exact Nat.le_refl 1
    | isSealed => exact ih _
    | refused => exact ih _
    | misconfigured => exact ih _
    | unfinished => exact ih _

/-! ## §4 What calls amount to -/

variable {α : Type}

/-- The last value that the calls assign to a field. -/
def lastOf (field : Content → Option α) (calls : List Call) : Option α :=
  (calls.filterMap fun call => field call.content).getLast?

/-- Everything that the calls add to a list. -/
def allOf (field : Content → List α) (calls : List Call) : List α :=
  calls.flatMap fun call => field call.content

theorem lastOf_concat (field : Content → Option α) (calls : List Call) (call : Call) :
    lastOf field (calls ++ [call]) = (field call.content).or (lastOf field calls) := by
  unfold lastOf
  rw [List.filterMap_append]
  cases hfield : field call.content <;> simp [hfield]

theorem allOf_concat (field : Content → List α) (calls : List Call) (call : Call) :
    allOf field (calls ++ [call]) = allOf field calls ++ field call.content := by
  simp [allOf]

/-- The payload that calls amount to, if they say all that the kind of action needs. -/
def payloadOf? (kind : ActionKind) (calls : List Call) : Option Payload :=
  match kind with
  | .table =>
    (lastOf (·.query) calls).map fun query =>
      .table
        { type := (lastOf (·.tableType) calls).getD .table
          query
          incrementalQuery := lastOf (·.incrementalQuery) calls
          preOps := allOf (·.preOps) calls
          postOps := allOf (·.postOps) calls
          incrementalWhere := lastOf (·.incrementalWhere) calls
          isProtected := (lastOf (·.isProtected) calls).getD false
          uniqueKey := (lastOf (·.uniqueKey) calls).getD []
          assertions := (lastOf (·.assertions) calls).getD {}
          bigquery := lastOf (·.bigquery) calls }
  | .operation =>
    some (.operation (allOf (·.queries) calls) ((lastOf (·.hasOutput) calls).getD false))
  | .assertion => (lastOf (·.query) calls).map .assertion
  | .declaration => some .declaration
  | .notebook => (lastOf (·.notebookContents) calls).map .notebook

/-- The registration that calls amount to. -/
def registrationOf? (kind : ActionKind) (name filePath : String) (calls : List Call) :
    Option Registration :=
  (payloadOf? kind calls).map fun payload =>
    { filePath
      name := (lastOf (·.name) calls).getD name
      schema := lastOf (·.schema) calls
      database := lastOf (·.database) calls
      dependencies := allOf (·.dependencies) calls
      descriptor :=
        { description := lastOf (·.description) calls
          columns := .ofList (allOf (·.columns) calls) }
      tags := allOf (·.tags) calls
      disabled := (lastOf (·.disabled) calls).getD false
      payload }

/-- The draft that calls amount to. -/
def gathered (kind : ActionKind) (name filePath : String) (stage : DraftStage)
    (calls : List Call) : Draft where
  stage := stage
  kind := kind
  filePath := filePath
  name := (lastOf (·.name) calls).getD name
  schema := lastOf (·.schema) calls
  database := lastOf (·.database) calls
  tableType := (lastOf (·.tableType) calls).getD .table
  descriptor :=
    { description := lastOf (·.description) calls, columns := .ofList (allOf (·.columns) calls) }
  tags := allOf (·.tags) calls
  disabled := (lastOf (·.disabled) calls).getD false
  dependencies := allOf (·.dependencies) calls
  query := lastOf (·.query) calls
  incrementalQuery := lastOf (·.incrementalQuery) calls
  queries := allOf (·.queries) calls
  preOps := allOf (·.preOps) calls
  postOps := allOf (·.postOps) calls
  incrementalWhere := lastOf (·.incrementalWhere) calls
  isProtected := (lastOf (·.isProtected) calls).getD false
  hasOutput := (lastOf (·.hasOutput) calls).getD false
  uniqueKey := (lastOf (·.uniqueKey) calls).getD []
  assertions := (lastOf (·.assertions) calls).getD {}
  bigquery := lastOf (·.bigquery) calls
  notebookContents := lastOf (·.notebookContents) calls

section Gathered

variable {kind : ActionKind} {name filePath : String} {stage : DraftStage}

/-- Nothing has been said about a new draft. -/
theorem eq_gathered_of_declare {d : Draft} (h : declare kind name filePath = .ok d) :
    d = gathered kind name filePath .declared [] := by
  unfold declare at h
  split at h
  · cases h
  · cases h
    rfl

/-- One more call that succeeds adds to the lists and replaces what was assigned before. -/
theorem taking_gathered (calls : List Call) (call : Call) :
    (gathered kind name filePath stage calls).taking call.content =
      gathered kind name filePath .configured (calls ++ [call]) := by
  simp [gathered, taking, lastOf_concat, allOf_concat, Option.getD_or, Dict.ofList,
    Dict.extend_extend]

/-- Finishing a draft says nothing. -/
theorem gathered_finish (calls : List Call) :
    gathered kind name filePath stage (calls ++ [.finish]) =
      gathered kind name filePath stage calls := by
  simp [gathered, lastOf_concat, allOf_concat, Call.content]

theorem payload_gathered (kind : ActionKind) (name filePath : String) (stage : DraftStage)
    (calls : List Call) :
    (gathered kind name filePath stage calls).payload.toOption = payloadOf? kind calls := by
  unfold payload payloadOf?
  cases kind with
  | table => cases hquery : lastOf (·.query) calls <;> simp only [gathered, hquery] <;> rfl
  | operation => rfl
  | assertion => cases hquery : lastOf (·.query) calls <;> simp only [gathered, hquery] <;> rfl
  | declaration => rfl
  | notebook =>
    cases hcontents : lastOf (·.notebookContents) calls <;>
      simp only [gathered, hcontents] <;> rfl

/-- A draft that holds what calls amount to is finished to what they amount to. -/
theorem registrationOf?_of_finish {calls : List Call} {r : Registration}
    (h : (apply finish (gathered kind name filePath stage calls)).1 = .ok r) :
    registrationOf? kind name filePath calls = some r := by
  rw [apply_finish] at h
  split at h
  · cases h
  · rw [registrationOf?, ← payload_gathered kind name filePath stage]
    split at h
    · cases h
    · next payload hpayload =>
      cases h
      rw [hpayload]
      rfl

/-- A call that succeeds is one more of the calls that the draft amounts to; one that fails says
nothing, unless it is a configuration. -/
theorem Outcome.exists_eq_gathered {done : List Call} {call : Call}
    {outcome : Except ActionError (Option Registration)} {e : Draft}
    (h : Outcome (gathered kind name filePath stage done) call outcome e)
    (hconfiguration : (!call.isConfigure || outcome.isOk) = true) :
    ∃ stage', e =
      gathered kind name filePath stage' (if outcome.isOk then done ++ [call] else done) := by
  cases h with
  | isSealed => exact ⟨stage, rfl⟩
  | accepted => exact ⟨.configured, taking_gathered done call⟩
  | refused => exact ⟨.configured, rfl⟩
  | misconfigured => cases hconfiguration
  | finished => exact ⟨.compiled, (gathered_finish done).symm⟩
  | unfinished => exact ⟨stage, rfl⟩

/-- What a draft holds after calls is what the calls amount to that have succeeded so far. -/
theorem exists_after_eq_gathered {done calls : List Call}
    (h : (gathered kind name filePath stage done).acceptsConfigurations calls = true) :
    ∃ stage', (gathered kind name filePath stage done).after calls =
      gathered kind name filePath stage'
        (done ++ (gathered kind name filePath stage done).accepted calls) := by
  induction calls generalizing done stage with
  | nil => exact ⟨stage, by rw [accepted, List.append_nil]; rfl⟩
  | cons call calls ih =>
    rw [after, List.foldl_cons]
    rcases hresult : apply call.perform (gathered kind name filePath stage done) with ⟨outcome, e⟩
    simp only [accepted, acceptsConfigurations, hresult, Bool.and_eq_true] at h ⊢
    obtain ⟨stage', rfl⟩ := (outcome_of_apply_perform hresult).exists_eq_gathered h.1
    obtain ⟨stage'', hcalls⟩ := ih h.2
    refine ⟨stage'', hcalls.trans ?_⟩
    split <;> simp

end Gathered

/-! ## §5 The life of a draft -/

/-- What can be relied on after any calls on a draft. -/
structure Lifecycle (d : Draft) (calls : List Call) : Prop where
  finished_once : (d.accepted calls).countP Call.isFinish ≤ 1
  /-- An attempt to finish that fails leaves no trace. -/
  unfinished : ∀ error, (apply finish (d.after calls)).1 = .error error →
    (apply finish (d.after calls)).2 = d.after calls
  /-- After a successful one every call fails and changes nothing. -/
  isSealed : ∀ r e, apply finish (d.after calls) = (.ok r, e) → ∀ (more : List Call) (call : Call),
    apply call.perform (e.after more) = (.error (.isSealed e.name), e)
  /-- A new draft is finished to what the calls amount to that succeeded, if no configuration
  failed. -/
  gathered : ∀ kind name filePath r, declare kind name filePath = .ok d →
    d.acceptsConfigurations calls = true → (apply finish (d.after calls)).1 = .ok r →
      registrationOf? kind name filePath (d.accepted calls) = some r

/-- Any draft, any calls on it, in any order. -/
theorem lifecycle (d : Draft) (calls : List Call) : d.Lifecycle calls where
  finished_once := d.countP_isFinish_accepted_le_one calls
  unfinished := by
    intro error h
    obtain ⟨e, hfinish⟩ := exists_apply_eq h
    rw [hfinish]
    exact eq_of_finish_error hfinish
  isSealed := by
    intro r e h more call
    have hstage : e.stage = .compiled := by
      rw [(eq_of_finish_ok h).2.2]
    rw [after_of_compiled hstage, apply_perform_of_compiled call hstage]
  gathered := by
    intro kind name filePath r hdeclare hconfigurations h
    obtain rfl := eq_gathered_of_declare hdeclare
    obtain ⟨stage, hafter⟩ := exists_after_eq_gathered hconfigurations
    rw [hafter] at h
    exact registrationOf?_of_finish h

/-- A setter that does not fit a table and an attempt to finish without a query fail; the others
count. -/
theorem lifecycle_orders :
    let calls : List Call :=
      [ .set (.addTags ["daily"]), .set (.setHasOutput true), .finish,
        .configure { name := some "sales", tags := some ["eu"] }, .set (.setQuery "SELECT 1"),
        .set (.setQuery "SELECT 2") ]
    ∃ d r, declare .table "orders" "orders.sqlx" = .ok d ∧ d.acceptsConfigurations calls = true ∧
      (d.accepted calls).length = 4 ∧ (apply finish (d.after calls)).1 = .ok r ∧
      registrationOf? .table "orders" "orders.sqlx" (d.accepted calls) = some r ∧
      r.name = "sales" ∧ r.tags = ["daily", "eu"] := by
  intro calls
  let d : Draft := { kind := .table, filePath := "orders.sqlx", name := "orders" }
  have hdeclare : declare .table "orders" "orders.sqlx" = .ok d := rfl
  have hconfigurations : d.acceptsConfigurations calls = true := by decide +kernel
  have hrun : ((apply finish (d.after calls)).1.toOption >>= fun r => some (r.name, r.tags)) =
      some ("sales", ["daily", "eu"]) := by decide +kernel
  obtain ⟨r, hr, hfields⟩ := exists_of_toOption_bind_eq_some hrun
  simp only [Option.some.injEq, Prod.mk.injEq] at hfields
  refine ⟨d, r, hdeclare, hconfigurations, by decide +kernel, hr, ?_, hfields⟩
  exact (d.lifecycle calls).gathered _ _ _ r hdeclare hconfigurations hr

end SqlWorkflow.Draft
