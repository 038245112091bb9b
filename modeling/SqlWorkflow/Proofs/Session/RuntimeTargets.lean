import SqlWorkflow.Proofs.Project.Requests
import SqlWorkflow.Proofs.Session.CheckNames
import SqlWorkflow.Proofs.Session.Soundness

/-!
# Runtime targets under any requests

The graph is checked on canonical targets alone: for dots in them, and for targets that occur
twice.  That is enough because affixes are put on without bringing in a dot and without making
different targets equal.  Both depend on the affixes, which requests may change; the settings of
a file stay such that both hold, whatever requests are made (`ProjectConfig.reliable_afterAll`).
-/

namespace SqlWorkflow

namespace ProjectConfig

variable {config : ProjectConfig}

/-! ## §1 Affixes keep targets apart -/

/-- What stands at the end of two texts does not make them equal. -/
theorem suffixed_injective (affix : Option String) : Function.Injective (suffixed affix) := by
  intro s s' h
  unfold suffixed at h
  split at h
  · split at h
    · exact h
    · exact (String.append_left_inj _).1 ((String.append_left_inj _).1 h)
  · exact h

/-- Affixes are put on each part of a target by itself. -/
theorem runtimeTarget_injective (config : ProjectConfig) (kind : ActionKind) :
    Function.Injective (Entry.runtimeTarget config kind) := by
  intro t t' h
  unfold Entry.runtimeTarget at h
  split at h
  · exact h
  · obtain ⟨database, schema, name⟩ := t
    obtain ⟨database', schema', name'⟩ := t'
    simp only [Target.mk.injEq] at h ⊢
    exact ⟨Option.map_injective (suffixed_injective _) h.1, suffixed_injective _ h.2.1,
      config.runtimeName_injective h.2.2⟩

/-- Affixes do not depend on the kind of an action, unless it is a declaration. -/
theorem runtimeTarget_of_ne_declaration {kind : ActionKind} (h : kind ≠ .declaration) :
    Entry.runtimeTarget config kind = Entry.runtimeTarget config .operation := by
  funext t
  simp [Entry.runtimeTarget, h]

/-- Actions other than declarations have one runtime target exactly if they have one canonical
target. -/
theorem runtime_ofRegistration_inj {r r' : Registration} (h : r.payload.kind ≠ .declaration)
    (h' : r'.payload.kind ≠ .declaration) (parent parent' : Option Nat) :
    (Entry.ofRegistration config r parent).runtime =
        (Entry.ofRegistration config r' parent').runtime ↔
      (Entry.ofRegistration config r parent).canonical =
        (Entry.ofRegistration config r' parent').canonical := by
  simp only [Entry.ofRegistration, runtimeTarget_of_ne_declaration h,
    runtimeTarget_of_ne_declaration h']
  exact (config.runtimeTarget_injective _).eq_iff

/-! ## §2 After any requests -/

/-- What the rest of the program relies on when it is given settings. -/
structure Reliable (config : ProjectConfig) : Prop where
  valid : config.Valid
  /-- A request that fails has changed nothing, the variables included. -/
  refused : ∀ o e, (config.request o).1 = .error e → (config.request o).2 = config
  /-- A request made twice has the outcome and the effect of one made once. -/
  repeated : ∀ o, (config.request o).2.request o = config.request o
  undotted : ∀ r, (Entry.ofRegistration config r none).runtime.Undotted ↔
    (Entry.ofRegistration config r none).canonical.Undotted
  distinct : ∀ r r' : Registration,
    r.payload.kind ≠ .declaration → r'.payload.kind ≠ .declaration →
      ((Entry.ofRegistration config r none).runtime =
          (Entry.ofRegistration config r' none).runtime ↔
        (Entry.ofRegistration config r none).canonical =
          (Entry.ofRegistration config r' none).canonical)

theorem Valid.reliable (h : config.Valid) : config.Reliable where
  valid := h
  refused _ _ := request_of_error
  repeated := config.request_request
  undotted r := h.affixesValid.undotted_runtimeTarget_iff r.payload.kind _
  distinct _ _ hkind hkind' := runtime_ofRegistration_inj hkind hkind' none none

/-- The settings of a file of either format are reliable, and stay so whatever requests are made,
refused ones among them. -/
theorem reliable_afterAll {text : String}
    (h : ProjectConfig.ofYaml text = .ok config ∨ ProjectConfig.ofJson text = .ok config)
    (requests : List Overrides) : (config.afterAll requests).Reliable :=
  ((valid_of_text h).afterAll requests).reliable

/-- A request that replaces the suffix of the file, and one that is refused. -/
theorem reliable_afterAll_suffixes :
    let text := "datasetSuffix: dev\nnamePrefix: p\nvars:\n  env: a\n"
    let config : ProjectConfig :=
      { schemaSuffix := some "dev", tablePrefix := some "p", vars := .ofList [("env", "a")] }
    let requests : List Overrides :=
      [ { schemaSuffix := some "ci_7", vars := .ofList [("env", "b")] },
        { schemaSuffix := some "no-dash", vars := .ofList [("env", "c")] } ]
    ProjectConfig.ofYaml text = .ok config ∧
      config.afterAll requests =
        { config with schemaSuffix := some "ci_7", vars := .ofList [("env", "b")] } ∧
      (config.afterAll requests).Reliable := by
  intro text config requests
  have hread : ((ProjectConfig.ofYaml text).toOption >>= some) = some config := by decide +kernel
  obtain ⟨found, hfound, heq⟩ := exists_of_toOption_bind_eq_some hread
  have htext : ProjectConfig.ofYaml text = .ok config := Option.some.inj heq ▸ hfound
  exact ⟨htext, by decide +kernel, reliable_afterAll (.inl htext) requests⟩

end ProjectConfig

end SqlWorkflow
