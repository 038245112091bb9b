import SqlWorkflow.Project.Config
import SqlWorkflow.Outcome
import Mathlib.Tactic.Common

/-!
# Settings that a project can have

Settings come from a settings file and are changed by requests.  Whatever the file says and however
many requests follow, the affixes hold only letters, digits and underscores
(`Accepted.affixesValid`).
-/

namespace SqlWorkflow.ProjectConfig

/-- Settings of a settings file, with the changes of any number of requests.  A refused request
changes nothing. -/
inductive Accepted : ProjectConfig → Prop where
  | ofYaml {text : String} {config : ProjectConfig} (h : ProjectConfig.ofYaml text = .ok config) :
      Accepted config
  | ofJson {text : String} {config : ProjectConfig} (h : ProjectConfig.ofJson text = .ok config) :
      Accepted config
  | override {config config' : ProjectConfig} {o : Overrides} (before : Accepted config)
      (h : config.override o = .ok config') : Accepted config'

/-- Every affix may be put before or after a name. -/
structure AffixesValid (config : ProjectConfig) : Prop where
  databaseSuffix : ∀ s ∈ config.databaseSuffix, Path.isValidAffix s = true
  schemaSuffix : ∀ s ∈ config.schemaSuffix, Path.isValidAffix s = true
  tablePrefix : ∀ s ∈ config.tablePrefix, Path.isValidAffix s = true

theorem affixesValid_of_badAffix?_eq_none {config : ProjectConfig}
    (h : config.badAffix? = none) : config.AffixesValid := by
  -- The search for a bad affix goes through all three.
  have hall : ∀ p ∈ config.affixes, ∀ s ∈ p.2, Path.isValidAffix s = true := by
    intro p hp s hs
    have hnone := List.findSome?_eq_none_iff.1 h p hp
    rw [Option.mem_def] at hs
    simpa [hs] using hnone
  exact
    { databaseSuffix := fun s hs => hall (.databaseSuffix, _) (by simp [affixes]) s hs
      schemaSuffix := fun s hs => hall (.schemaSuffix, _) (by simp [affixes]) s hs
      tablePrefix := fun s hs => hall (.tablePrefix, _) (by simp [affixes]) s hs }

/-- What validation has found out about the settings that it lets pass; it changes nothing. -/
theorem of_validate_eq_ok {config config' : ProjectConfig} (h : config.validate = .ok config') :
    config.defaultSchema.isEmpty = false ∧ config.assertionSchema.isEmpty = false ∧
      config.badAffix? = none ∧ config' = config := by
  unfold validate at h
  split at h
  · cases h
  · next hdefault =>
    split at h
    · cases h
    · next hassertion =>
      split at h
      · cases h
      · next hnone =>
        cases h
        exact ⟨Bool.eq_false_iff.2 hdefault, Bool.eq_false_iff.2 hassertion, hnone, rfl⟩

theorem affixesValid_of_validate {config config' : ProjectConfig}
    (h : config.validate = .ok config') : config.AffixesValid :=
  affixesValid_of_badAffix?_eq_none (of_validate_eq_ok h).2.2.1

/-- The settings of a file have passed validation. -/
theorem validate_of_ofFile {file : File} {config : ProjectConfig}
    (h : ofFile file = .ok config) : config.validate = .ok config := by
  unfold ofFile at h
  simp only at h
  split at h <;> obtain ⟨_, -, hvalidate⟩ := exists_of_bind_eq_ok h
  all_goals
    obtain ⟨-, -, -, rfl⟩ := of_validate_eq_ok hvalidate
    exact hvalidate

theorem validate_of_ofYaml {text : String} {config : ProjectConfig}
    (h : ProjectConfig.ofYaml text = .ok config) : config.validate = .ok config := by
  unfold ProjectConfig.ofYaml at h
  simp only at h
  split at h <;> obtain ⟨_, -, hfile⟩ := exists_of_bind_eq_ok h
  all_goals exact validate_of_ofFile hfile

theorem validate_of_ofJson {text : String} {config : ProjectConfig}
    (h : ProjectConfig.ofJson text = .ok config) : config.validate = .ok config := by
  unfold ProjectConfig.ofJson at h
  obtain ⟨_, -, hfile⟩ := exists_of_bind_eq_ok h
  exact validate_of_ofFile hfile

/-- A request replaces the schema suffix, if at all, by a usable one, and touches no other
affix. -/
theorem AffixesValid.override {config config' : ProjectConfig} {o : Overrides}
    (hvalid : config.AffixesValid) (h : config.override o = .ok config') :
    config'.AffixesValid := by
  unfold ProjectConfig.override at h
  simp only at h
  split at h
  · cases h
    exact ⟨hvalid.databaseSuffix, hvalid.schemaSuffix, hvalid.tablePrefix⟩
  · next suffix _ =>
    split at h
    · cases h
    · next hsuffix =>
      cases h
      refine ⟨hvalid.databaseSuffix, fun s hs => ?_, hvalid.tablePrefix⟩
      -- An empty suffix takes the schema suffix away.
      rw [Option.mem_def, Option.ite_none_left_eq_some, Option.some.injEq] at hs
      simpa [hs.2] using hsuffix

/-- Settings that a project can have hold no unusable affix. -/
theorem Accepted.affixesValid {config : ProjectConfig} (h : config.Accepted) :
    config.AffixesValid := by
  induction h with
  | ofYaml h => exact affixesValid_of_validate (validate_of_ofYaml h)
  | ofJson h => exact affixesValid_of_validate (validate_of_ofJson h)
  | override _ h ih => exact ih.override h

end SqlWorkflow.ProjectConfig
