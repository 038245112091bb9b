import SqlWorkflow.Proofs.Action.Lifecycle

/-!
# Configurations

A configuration says several things about an action at once, where a setter says one.  Two things
might be expected of it, and each holds up to one exception.

A configuration that is refused leaves the draft as it was, apart from its stage.  The exception is
an empty name: it is found when the table type has been set (`eq_of_configure_error_iff`).  Calls in
any order amount to those that succeed wherever there is no such configuration among them
(`registrationOf?_of_orderly`).

A configuration with a single key does what the setters for that key do.  The exception is the
output flag, which only its setter refuses for what is no operation (`Setting.agrees_iff`).

- **§1** Configurations that are refused.
- **§2** Sequences of calls, some of which are configurations that are refused.
- **§3** Setters, one after the other.
- **§4** Configurations with a single key.
-/

namespace SqlWorkflow.Draft

/-! ## §1 Configurations that are refused -/

section Refused

variable {config : ActionConfig} {d e : Draft} {error : ActionError}

/-- Of a configuration that is refused no more than the table type can be seen. -/
theorem eq_of_configure_error (h : apply (configure config) d = (.error error, e)) :
    e = { d with stage := e.stage, tableType := e.tableType } := by
  cases configured_of_apply_configure h <;> rfl

/-- And the table type only if the name is refused. -/
theorem eq_of_configure_error_iff (h : apply (configure config) d = (.error error, e)) :
    e = { d with stage := e.stage } ↔
      (error = .invalid d.name .emptyName →
        ∀ type, config.type = some (.dataset type) → type = d.tableType) := by
  cases configured_of_apply_configure h with
  | isSealed => simp
  | dataset => simp
  | wrongType => simp
  | emptyName _ _ _ _ htype =>
    subst htype
    rcases htype : config.type with _ | type
    · simp
    · cases type <;> simp [ConfigType.tableType?]

/-- A table that is refused an empty name has become a view. -/
example :
    let d : Draft := { kind := .table, filePath := "orders.sqlx", name := "orders" }
    (apply (configure { type := some (.dataset .view), name := some "" }) d).2 =
      { d with stage := .configured, tableType := .view } := rfl

end Refused

/-! ## §2 Sequences of calls -/

/-- A configuration that sets no table type before its name is refused. -/
def Orderly (config : ActionConfig) : Prop :=
  config.name = some "" → config.type.bind ConfigType.tableType? = none

section Gathered

variable {kind : ActionKind} {name filePath : String} {stage : DraftStage}

theorem exists_eq_gathered_of_orderly {config : ActionConfig} {e : Draft} {done : List Call}
    (horderly : Orderly config) {outcome : Except ActionError (Option Registration)}
    (h : apply (Call.configure config).perform (gathered kind name filePath stage done) =
      (outcome, e)) :
    ∃ stage', e = gathered kind name filePath stage'
      (if outcome.isOk then done ++ [.configure config] else done) := by
  rw [Call.perform, apply_bind] at h
  rcases hconfigure : apply (configure config) (gathered kind name filePath stage done) with
    ⟨result, e'⟩
  rw [hconfigure] at h
  cases configured_of_apply_configure hconfigure with
  | isSealed =>
    cases h
    exact ⟨stage, rfl⟩
  | dataset =>
    cases h
    exact ⟨.configured, rfl⟩
  | wrongType =>
    cases h
    exact ⟨.configured, rfl⟩
  | emptyName _ _ _ hname htype =>
    cases h
    -- An orderly configuration has set no table type by the time its name is refused.
    rw [horderly hname] at htype
    subst htype
    exact ⟨.configured, rfl⟩
  | applied =>
    cases h
    exact ⟨.configured, taking_gathered done (.configure config)⟩

/-- What a draft holds after calls is what the calls amount to that have succeeded so far, also
where configurations have been refused. -/
theorem exists_after_eq_gathered_of_orderly {done calls : List Call}
    (h : ∀ config, Call.configure config ∈ calls → Orderly config) :
    ∃ stage', (gathered kind name filePath stage done).after calls =
      gathered kind name filePath stage'
        (done ++ (gathered kind name filePath stage done).accepted calls) := by
  induction calls generalizing done stage with
  | nil => exact ⟨stage, by rw [accepted, List.append_nil]; rfl⟩
  | cons call calls ih =>
    rw [after, List.foldl_cons]
    rcases hresult : apply call.perform (gathered kind name filePath stage done) with ⟨outcome, e⟩
    have hstep : ∃ stage', e =
        gathered kind name filePath stage' (if outcome.isOk then done ++ [call] else done) := by
      cases call with
      | configure config =>
        exact exists_eq_gathered_of_orderly (h config List.mem_cons_self) hresult
      | set setter => exact (outcome_of_apply_perform hresult).exists_eq_gathered rfl
      | finish => exact (outcome_of_apply_perform hresult).exists_eq_gathered rfl
    obtain ⟨stage', rfl⟩ := hstep
    obtain ⟨stage'', hcalls⟩ := ih fun config hconfig => h config (List.mem_cons_of_mem _ hconfig)
    refine ⟨stage'', hcalls.trans ?_⟩
    simp only [accepted, hresult]
    split <;> simp

/-- A new draft is finished to what the calls amount to that have succeeded. -/
theorem registrationOf?_of_orderly {d : Draft} {calls : List Call} {r : Registration}
    (hdeclare : declare kind name filePath = .ok d)
    (h : ∀ config, Call.configure config ∈ calls → Orderly config)
    (hfinish : (apply finish (d.after calls)).1 = .ok r) :
    registrationOf? kind name filePath (d.accepted calls) = some r := by
  obtain rfl := eq_gathered_of_declare hdeclare
  obtain ⟨stage, hafter⟩ := exists_after_eq_gathered_of_orderly h
  rw [hafter] at hfinish
  exact registrationOf?_of_finish hfinish

end Gathered

/-! ## §3 Setters, one after the other -/

/-- The setters, up to the first that fails. -/
def setAll : List Setter → Change Unit
  | [] => pure ()
  | setter :: setters => do
    setter.change
    setAll setters

/-- The draft after setters none of which fails. -/
def takingAll (d : Draft) (setters : List Setter) : Draft :=
  setters.foldl (fun d setter => d.taking setter.content) d

theorem takingAll_cons (d : Draft) (setter : Setter) (setters : List Setter) :
    d.takingAll (setter :: setters) = (d.taking setter.content).takingAll setters :=
  rfl

theorem apply_setAll_eq_ok_iff {setters : List Setter} {d e : Draft}
    (hstage : d.stage ≠ .compiled) :
    apply (setAll setters) d = (.ok (), e) ↔
      (∀ setter ∈ setters, setter.fault? d.kind = none) ∧ e = d.takingAll setters := by
  induction setters generalizing d with
  | nil =>
    change (Except.ok (), d) = (.ok (), e) ↔ _
    simp [takingAll, eq_comm]
  | cons setter setters ih =>
    rw [setAll, apply_bind, setter.apply_change_of_ne_compiled hstage, List.forall_mem_cons]
    cases setter.fault? d.kind with
    | some fault => simp
    | none =>
      have hstage' : (d.taking setter.content).stage ≠ .compiled := by simp [taking]
      dsimp only
      rw [ih hstage']
      simp [takingAll, taking]

/-! ## §4 Configurations with a single key -/

/-- A key that a configuration can have and setters are there for, with its value. -/
inductive Setting where
  | type (t : TableType)
  | schema (s : String)
  | database (s : String)
  | description (s : String)
  | columns (docs : Dict ColumnDoc)
  | tags (names : List String)
  | dependencies (specs : List DependencySpec)
  | disabled (flag : Bool)
  | isProtected (flag : Bool)
  | hasOutput (flag : Bool)
  | uniqueKey (names : List String)
  | bigquery (options : BigQueryOptions)

/-- The configuration that has this key only. -/
def Setting.config : Setting → ActionConfig
  | .type t => { type := some (.dataset t) }
  | .schema s => { schema := some s }
  | .database s => { database := some s }
  | .description s => { description := some s }
  | .columns docs => { columns := some docs }
  | .tags names => { tags := some names }
  | .dependencies specs => { dependencies := some specs }
  | .disabled flag => { disabled := some flag }
  | .isProtected flag => { isProtected := some flag }
  | .hasOutput flag => { hasOutput := some flag }
  | .uniqueKey names => { uniqueKey := some names }
  | .bigquery options => { bigquery := some options }

/-- The setters that say the same: one for each column and each dependency, one for all else. -/
def Setting.setters : Setting → List Setter
  | .type t => [.setType t]
  | .schema s => [.setSchema s]
  | .database s => [.setDatabase s]
  | .description s => [.setDescription s]
  | .columns docs => docs.entries.map fun (column, doc) => .setColumn column doc
  | .tags names => [.addTags names]
  | .dependencies specs => (specs.map DependencySpec.reference).map .addDependency
  | .disabled flag => [.setDisabled flag]
  | .isProtected flag => [.setProtected flag]
  | .hasOutput flag => [.setHasOutput flag]
  | .uniqueKey names => [.setUniqueKey names]
  | .bigquery options => [.setBigquery options]

/-- What is said about columns one after the other can be said at once. -/
theorem takingAll_setColumn (d : Draft) {column : String × ColumnDoc}
    {columns : List (String × ColumnDoc)} :
    d.takingAll ((column :: columns).map fun (column, doc) => .setColumn column doc) =
      d.taking { columns := column :: columns } := by
  induction columns generalizing d column with
  | nil => rfl
  | cons second rest ih =>
    rw [List.map_cons, takingAll_cons, ih]
    simp [taking, Setter.content, Dict.extend_extend]

theorem takingAll_addDependency (d : Draft) {r : TargetRef} {rs : List TargetRef} :
    d.takingAll ((r :: rs).map .addDependency) = d.taking { dependencies := r :: rs } := by
  induction rs generalizing d r with
  | nil => rfl
  | cons second rest ih =>
    rw [List.map_cons, takingAll_cons, ih]
    simp [taking, Setter.content]

namespace Setting

/-- The setters say what the configuration says. -/
theorem takingAll_setters (s : Setting) (d : Draft) (h : s.setters ≠ []) :
    d.takingAll s.setters = d.taking (contentOf s.config) := by
  cases s with
  | columns docs =>
    obtain ⟨entry, entries, hentries⟩ := List.exists_cons_of_ne_nil (l := docs.entries)
      (by simpa [setters] using h)
    rw [setters, hentries, takingAll_setColumn, ← hentries]
    rfl
  | dependencies specs =>
    obtain ⟨spec, specs, rfl⟩ := List.exists_cons_of_ne_nil (l := specs)
      (by simpa [setters] using h)
    exact takingAll_addDependency d
  | _ => simp [setters, takingAll, taking, contentOf, config, Setter.content, ConfigType.tableType?]

/-- The setters fit an action that the configuration fits, if they are not for the output flag. -/
theorem forall_fault?_eq_none_iff (s : Setting) (kind : ActionKind) :
    (∀ setter ∈ s.setters, setter.fault? kind = none) ↔
      TypeFits s.config kind ∧ ∀ flag, s = .hasOutput flag → kind = .operation := by
  cases s with
  | hasOutput flag => simp [setters, config, TypeFits, Setter.fault?, eq_comm]
  | type t => simp [setters, config, TypeFits, Setter.fault?, ConfigType.kind?, eq_comm]
  | columns docs =>
    refine iff_of_true (fun setter hsetter => ?_) (by simp [config, TypeFits])
    obtain ⟨entry, -, rfl⟩ := List.mem_map.1 hsetter
    rfl
  | _ => simp [setters, config, TypeFits, Setter.fault?]

/-- A draft takes the configuration if and only if it takes the setters, and is the same after them,
unless the key is the output flag of what is no operation. -/
theorem agrees_iff (s : Setting) {d : Draft} (hstage : d.stage ≠ .compiled)
    (hsetters : s.setters ≠ []) :
    (∀ e, apply (configure s.config) d = (.ok (), e) ↔ apply (setAll s.setters) d = (.ok (), e)) ↔
      ∀ flag, s = .hasOutput flag → d.kind = .operation := by
  have hconfigure : ∀ e, apply (configure s.config) d = (.ok (), e) ↔
      TypeFits s.config d.kind ∧ e = d.taking (contentOf s.config) := by
    intro e
    rw [apply_configure_eq_ok_iff hstage]
    cases s <;> simp [config]
  have hset : ∀ e, apply (setAll s.setters) d = (.ok (), e) ↔
      (TypeFits s.config d.kind ∧ ∀ flag, s = .hasOutput flag → d.kind = .operation) ∧
        e = d.taking (contentOf s.config) := by
    intro e
    rw [apply_setAll_eq_ok_iff hstage, s.takingAll_setters d hsetters,
      s.forall_fault?_eq_none_iff d.kind]
  simp only [hconfigure, hset]
  constructor
  · rintro h flag rfl
    -- The configuration fits every kind of action; only the setter can refuse the flag.
    have hfits : TypeFits (hasOutput flag).config d.kind := by simp [TypeFits, config]
    exact ((h _).1 ⟨hfits, rfl⟩).1.2 flag rfl
  · intro hflag e
    rw [and_iff_left hflag]

end Setting

end SqlWorkflow.Draft
