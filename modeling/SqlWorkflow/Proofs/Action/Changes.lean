import SqlWorkflow.Action.Draft

/-!
# What changes leave of a draft

A change that takes no dependency back and leaves an action the kind that it has gives a draft that
`Extends` the one before, whether it succeeds or fails.  One such change after another is such a
change too, and so the dependencies are still there when the draft is finished.

- **§1** What a sequence of changes and a use of a draft do.
- **§2** Drafts that extend one another, and changes after which they do.
- **§3** Finishing a draft; a registration has the dependencies of the draft that was finished.
-/

namespace SqlWorkflow.Draft

variable {α β : Type}

/-! ## §1 Sequences of changes -/

/-- The outcome of a change comes with a draft. -/
theorem exists_apply_eq {change : Change α} {d : Draft} {outcome : Except ActionError α}
    (h : (apply change d).1 = outcome) : ∃ e, apply change d = (outcome, e) :=
  ⟨_, Prod.ext h rfl⟩

theorem apply_bind (first : Change α) (f : α → Change β) (d : Draft) :
    apply (first >>= f) d =
      match apply first d with
      | (.ok a, e) => apply (f a) e
      | (.error error, e) => (.error error, e) := by
  change (ExceptT.bindCont f (apply first d).1 : StateM Draft _) (apply first d).2 = _
  rcases apply first d with ⟨_ | _, _⟩ <;> rfl

theorem apply_get_bind (f : Draft → Change α) (d : Draft) :
    apply (get >>= f) d = apply (f d) d :=
  rfl

/-- If a sequence of two changes succeeds, both do. -/
theorem exists_of_apply_bind_eq_ok {first : Change α} {f : α → Change β} {d e : Draft} {b : β}
    (h : apply (first >>= f) d = (.ok b, e)) :
    ∃ a d', apply first d = (.ok a, d') ∧ apply (f a) d' = (.ok b, e) := by
  rw [apply_bind] at h
  rcases hfirst : apply first d with ⟨error | a, d'⟩
  · rw [hfirst] at h
    cases h
  · rw [hfirst] at h
    exact ⟨a, d', rfl, h⟩

theorem apply_touch (d : Draft) :
    apply touch d =
      if d.stage = .compiled then (.error (.isSealed d.name), d)
      else (.ok (), { d with stage := .configured }) := by
  change apply (if d.stage = .compiled then throw (.isSealed d.name)
    else set { d with stage := .configured }) d = _
  split <;> rfl

theorem apply_touch_bind {α : Type} (f : Unit → Change α) (d : Draft) :
    apply (touch >>= f) d =
      if d.stage = .compiled then (.error (.isSealed d.name), d)
      else apply (f ()) { d with stage := .configured } := by
  rw [apply_bind, apply_touch]
  by_cases h : d.stage = .compiled
  · simp only [if_pos h]
  · simp only [if_neg h]

theorem apply_change (f : Draft → Draft) (d : Draft) :
    apply (change f) d =
      if d.stage = .compiled then (.error (.isSealed d.name), d)
      else (.ok (), f { d with stage := .configured }) := by
  unfold change
  rw [apply_touch_bind]
  rfl

theorem eq_of_apply_change_eq_ok {f : Draft → Draft} {d e : Draft} {u : Unit}
    (h : apply (change f) d = (.ok u, e)) : e = f { d with stage := .configured } := by
  rw [apply_change] at h
  split at h
  · cases h
  · cases h
    rfl

/-! ## §2 Extensions -/

/-- The draft is one of the same kind that has at least the dependencies of another. -/
structure Extends (d e : Draft) : Prop where
  kind_eq : e.kind = d.kind
  dependencies_subset : d.dependencies ⊆ e.dependencies

namespace Extends

theorem refl (d : Draft) : d.Extends d :=
  ⟨rfl, List.Subset.refl _⟩

theorem trans {d e f : Draft} (h : d.Extends e) (h' : e.Extends f) : d.Extends f :=
  ⟨h'.kind_eq.trans h.kind_eq, List.Subset.trans h.dependencies_subset h'.dependencies_subset⟩

end Extends

/-- The draft after the change extends the one before, whichever it is. -/
def Extending (change : Change α) : Prop := ∀ d : Draft, d.Extends (apply change d).2

namespace Extending

variable {change : Change α}

protected theorem pure (a : α) : Extending (pure a : Change α) :=
  fun d => .refl d

protected theorem bind {f : α → Change β} (hchange : Extending change)
    (hf : ∀ a, Extending (f a)) : Extending (change >>= f) := by
  intro d
  rw [apply_bind]
  have hfirst := hchange d
  -- The rest of the changes is left out if the first one fails.
  rcases hresult : apply change d with ⟨error | a, e⟩
  · rw [hresult] at hfirst
    exact hfirst
  · rw [hresult] at hfirst
    exact hfirst.trans (hf a e)

protected theorem ite {p : Prop} [Decidable p] {change' : Change α} (h : Extending change)
    (h' : Extending change') : Extending (if p then change else change') := by
  split
  · exact h
  · exact h'

end Extending

theorem mem_of_addDependency {reference : TargetRef} {d e : Draft} {u : Unit}
    (h : apply (addDependency reference) d = (.ok u, e)) : reference ∈ e.dependencies := by
  obtain ⟨_, d', -, hadd⟩ := exists_of_apply_bind_eq_ok h
  cases hadd
  exact List.mem_append_right _ (List.mem_singleton_self reference)

/-! ## §3 Registrations -/

/-- The registration that a draft is finished to. -/
def registration (d : Draft) (payload : Payload) : Registration where
  filePath := d.filePath
  name := d.name
  schema := d.schema
  database := d.database
  dependencies := d.dependencies
  descriptor := d.descriptor
  tags := d.tags
  disabled := d.disabled
  payload := payload

theorem apply_finish (d : Draft) :
    apply finish d =
      if d.stage = .compiled then (.error (.isSealed d.name), d)
      else
        match d.payload with
        | .error fault => (.error (.invalid d.name fault), d)
        | .ok payload => (.ok (d.registration payload), { d with stage := .compiled }) := by
  change apply (if d.stage = .compiled then _ else _) d = _
  by_cases h : d.stage = .compiled
  · rw [if_pos h, if_pos h]
    rfl
  · rw [if_neg h, if_neg h]
    cases d.payload <;> rfl

/-- A draft that is finished was not finished before. -/
theorem eq_of_finish_ok {d e : Draft} {r : Registration} (h : apply finish d = (.ok r, e)) :
    d.stage ≠ .compiled ∧ (∃ payload, d.payload = .ok payload ∧ r = d.registration payload) ∧
      e = { d with stage := .compiled } := by
  rw [apply_finish] at h
  split at h
  · cases h
  · next hstage =>
    split at h
    · cases h
    · next payload hpayload =>
      cases h
      exact ⟨hstage, ⟨payload, hpayload, rfl⟩, rfl⟩

/-- An attempt to finish a draft that fails leaves no trace. -/
theorem eq_of_finish_error {d e : Draft} {error : ActionError}
    (h : apply finish d = (.error error, e)) : e = d := by
  rw [apply_finish] at h
  split at h
  · cases h
    rfl
  · split at h
    · cases h
      rfl
    · cases h

theorem dependencies_of_finish {d e : Draft} {r : Registration}
    (h : apply finish d = (.ok r, e)) : r.dependencies = d.dependencies := by
  obtain ⟨-, ⟨payload, -, rfl⟩, -⟩ := eq_of_finish_ok h
  rfl

/-- A draft that is changed and finished becomes a registration with its dependencies. -/
theorem subset_dependencies_of_finish {change : Change Unit} (hchange : Extending change)
    {d e : Draft} {r : Registration} (h : apply (do change; finish) d = (.ok r, e)) :
    d.dependencies ⊆ r.dependencies := by
  obtain ⟨_, d', hfirst, hfinish⟩ := exists_of_apply_bind_eq_ok h
  have hextends := hchange d
  rw [hfirst] at hextends
  rw [dependencies_of_finish hfinish]
  exact hextends.dependencies_subset

end SqlWorkflow.Draft
