import SqlWorkflow.Proofs.Project.Settings

/-!
# Requests to change settings

Settings are checked once, when their file is read; afterwards requests change them in place.
Each request keeps them valid (`Valid.request`), and so does any sequence of requests
(`Valid.afterAll`), so that reading the settings anew would find nothing wrong with them either
(`validate_eq_ok_iff`).  A request that is refused changes nothing (`request_of_error`), and
making a request again changes nothing more (`request_request`).
-/

namespace SqlWorkflow.ProjectConfig

variable {config : ProjectConfig}

/-! ## §1 Valid settings -/

/-- An ASCII letter or digit, or an underscore. -/
def WordChar (c : Char) : Prop :=
  ('A' ≤ c ∧ c ≤ 'Z') ∨ ('a' ≤ c ∧ c ≤ 'z') ∨ ('0' ≤ c ∧ c ≤ '9') ∨ c = '_'

instance (c : Char) : Decidable (WordChar c) := inferInstanceAs (Decidable (_ ∨ _))

/-- Settings that every check accepts. -/
structure Valid (config : ProjectConfig) : Prop where
  defaultSchema : config.defaultSchema ≠ ""
  assertionSchema : config.assertionSchema ≠ ""
  databaseSuffix : ∀ s ∈ config.databaseSuffix, ∀ c ∈ s.toList, WordChar c
  schemaSuffix : ∀ s ∈ config.schemaSuffix, ∀ c ∈ s.toList, WordChar c
  tablePrefix : ∀ s ∈ config.tablePrefix, ∀ c ∈ s.toList, WordChar c

theorem wordChar_iff {c : Char} : (c.isAlphanum || c == '_') = true ↔ WordChar c := by
  have hupper : c.isUpper = true ↔ 'A' ≤ c ∧ c ≤ 'Z' := decide_eq_true_iff
  have hlower : c.isLower = true ↔ 'a' ≤ c ∧ c ≤ 'z' :=
    Bool.and_eq_true_iff.trans (and_congr decide_eq_true_iff decide_eq_true_iff)
  have hdigit : c.isDigit = true ↔ '0' ≤ c ∧ c ≤ '9' :=
    Bool.and_eq_true_iff.trans (and_congr decide_eq_true_iff decide_eq_true_iff)
  have hclasses : c.isAlphanum = (c.isUpper || c.isLower || c.isDigit) := rfl
  rw [hclasses, Bool.or_eq_true, Bool.or_eq_true, Bool.or_eq_true, hupper, hlower, hdigit,
    beq_iff_eq, or_assoc, or_assoc]
  exact Iff.rfl

theorem isValidAffix_iff {s : String} :
    Path.isValidAffix s = true ↔ ∀ c ∈ s.toList, WordChar c := by
  rw [Path.isValidAffix, List.all_eq_true]
  exact forall₂_congr fun c _ => wordChar_iff

theorem badAffix?_eq_none_iff : config.badAffix? = none ↔ config.AffixesValid := by
  refine ⟨affixesValid_of_badAffix?_eq_none, fun h => ?_⟩
  simpa [badAffix?, affixes, List.findSome?_eq_none_iff, Option.filter_eq_none_iff] using
    ⟨h.databaseSuffix, h.schemaSuffix, h.tablePrefix⟩

theorem Valid.affixesValid (h : config.Valid) : config.AffixesValid where
  databaseSuffix s hs := isValidAffix_iff.2 (h.databaseSuffix s hs)
  schemaSuffix s hs := isValidAffix_iff.2 (h.schemaSuffix s hs)
  tablePrefix s hs := isValidAffix_iff.2 (h.tablePrefix s hs)

/-- Validation accepts the valid settings and no others. -/
theorem validate_eq_ok_iff : config.validate = .ok config ↔ config.Valid := by
  constructor
  · intro h
    obtain ⟨hdefault, hassertion, -, -⟩ := of_validate_eq_ok h
    have haffixes := affixesValid_of_validate h
    exact
      { defaultSchema := by simpa using hdefault
        assertionSchema := by simpa using hassertion
        databaseSuffix := fun s hs => isValidAffix_iff.1 (haffixes.databaseSuffix s hs)
        schemaSuffix := fun s hs => isValidAffix_iff.1 (haffixes.schemaSuffix s hs)
        tablePrefix := fun s hs => isValidAffix_iff.1 (haffixes.tablePrefix s hs) }
  · intro h
    simp [validate, h.defaultSchema, h.assertionSchema, badAffix?_eq_none_iff.2 h.affixesValid]

/-! ## §2 One request -/

/-- The settings with another schema suffix and more variables. -/
def changed (config : ProjectConfig) (o : Overrides) : ProjectConfig :=
  { config with
    schemaSuffix :=
      match o.schemaSuffix with
      | none => config.schemaSuffix
      | some suffix => if suffix.isEmpty then none else some suffix
    vars := config.vars.extend o.vars.entries }

/-- A request is refused for its suffix only, before anything is changed. -/
theorem request_cases (config : ProjectConfig) (o : Overrides) :
    (∃ suffix, o.schemaSuffix = some suffix ∧ Path.isValidAffix suffix = false ∧
      config.request o = (.error (.badAffix .schemaSuffixOverride suffix), config)) ∨
    (∀ suffix ∈ o.schemaSuffix, Path.isValidAffix suffix = true) ∧
      config.request o = (.ok (), config.changed o) := by
  rcases o with ⟨_ | suffix, vars⟩
  · exact .inr ⟨fun _ h => (Option.not_mem_none _ h).elim, rfl⟩
  · cases hvalid : Path.isValidAffix suffix with
    | false =>
      refine .inl ⟨suffix, rfl, hvalid, ?_⟩
      simp only [request, applyOverrides, hvalid]
      rfl
    | true =>
      refine .inr ⟨fun s hs => Option.some.inj hs ▸ hvalid, ?_⟩
      simp only [request, applyOverrides, hvalid]
      rfl

/-- A request in place has the outcome of the request on a copy. -/
theorem request_eq_override (config : ProjectConfig) (o : Overrides) :
    config.request o =
      match config.override o with
      | .ok config' => (.ok (), config')
      | .error e => (.error e, config) := by
  rcases o with ⟨_ | suffix, vars⟩
  · rfl
  · cases hvalid : Path.isValidAffix suffix
    all_goals
      simp only [request, applyOverrides, override, hvalid]
      rfl

/-- A refused request changes nothing. -/
theorem request_of_error {o : Overrides} {e : SettingsError}
    (h : (config.request o).1 = .error e) : (config.request o).2 = config := by
  obtain ⟨suffix, -, -, heq⟩ | ⟨-, heq⟩ := config.request_cases o
  · rw [heq]
  · rw [heq] at h
    cases h

/-- A request keeps the settings valid. -/
theorem Valid.request (hvalid : config.Valid) (o : Overrides) : (config.request o).2.Valid := by
  obtain ⟨suffix, -, -, heq⟩ | ⟨hsuffix, heq⟩ := config.request_cases o
  · rwa [heq]
  · rw [heq]
    refine
      { defaultSchema := hvalid.defaultSchema
        assertionSchema := hvalid.assertionSchema
        databaseSuffix := hvalid.databaseSuffix
        schemaSuffix := fun s hs => ?_
        tablePrefix := hvalid.tablePrefix }
    cases ho : o.schemaSuffix with
    | none => exact hvalid.schemaSuffix s (by simpa [changed, ho] using hs)
    | some suffix =>
      -- The suffix of the request is the new one, unless it is empty.
      have hs : ¬ suffix = "" ∧ suffix = s := by simpa [changed, ho] using hs
      exact isValidAffix_iff.1 (hsuffix s (hs.2 ▸ ho))

/-- The variables of a request are there already when it is made again, and so is its suffix. -/
theorem changed_changed (config : ProjectConfig) (o : Overrides) :
    (config.changed o).changed o = config.changed o := by
  rcases o with ⟨_ | suffix, vars⟩ <;> simp [changed, Dict.extend_extend_self]

/-- Making a request again has the outcome that it had, and changes nothing more. -/
theorem request_request (config : ProjectConfig) (o : Overrides) :
    (config.request o).2.request o = config.request o := by
  obtain ⟨suffix, hsuffix, hbad, heq⟩ | ⟨hgood, heq⟩ := config.request_cases o
  · rw [heq, heq]
  · rw [heq]
    obtain ⟨suffix, hsuffix, hbad, -⟩ | ⟨-, heq'⟩ := (config.changed o).request_cases o
    · exact absurd (hgood suffix hsuffix) (by simp [hbad])
    · rw [heq', changed_changed]

/-! ## §3 Sequences of requests -/

/-- The settings after requests, one after the other; a refused one does not end the sequence. -/
def afterAll (config : ProjectConfig) (requests : List Overrides) : ProjectConfig :=
  requests.foldl (fun config o => (config.request o).2) config

theorem Valid.afterAll (h : config.Valid) (requests : List Overrides) :
    (config.afterAll requests).Valid := by
  induction requests generalizing config with
  | nil => exact h
  | cons o requests ih => exact ih (h.request o)

/-- Valid settings come out of a settings file. -/
theorem valid_of_text {text : String}
    (h : ProjectConfig.ofYaml text = .ok config ∨ ProjectConfig.ofJson text = .ok config) :
    config.Valid :=
  validate_eq_ok_iff.1 (h.elim validate_of_ofYaml validate_of_ofJson)

end SqlWorkflow.ProjectConfig
