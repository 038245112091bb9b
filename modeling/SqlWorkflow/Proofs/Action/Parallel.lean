import SqlWorkflow.Proofs.Action.Lifecycle

/-!
# The same changes on two drafts

Whether a setter or a configuration succeeds depends on little of a draft: whether it is finished
and what kind of action it is.  What succeeds on one draft does so on every unfinished draft of the
same kind, and if it sets the name, it sets it for both.

- **§1** Drafts that stand `Alongside` one another, and changes that keep them there.
- **§2** Setters that give no query, and configurations, which never do.
-/

namespace SqlWorkflow.Draft

variable {α : Type} {kind : ActionKind} {names : String → String → Prop}

/-! ## §1 Parallel changes -/

/-- Two unfinished drafts of the same kind whose names are related.  The first one has no
queries. -/
structure Alongside (kind : ActionKind) (names : String → String → Prop) (d d' : Draft) : Prop where
  kind_eq : d.kind = kind
  kind_eq' : d'.kind = kind
  unfinished : d.stage ≠ .compiled
  unfinished' : d'.stage ≠ .compiled
  query_eq : d.query = none
  incrementalQuery_eq : d.incrementalQuery = none
  name : names d.name d'.name

/-- If the change succeeds on a draft, it does so on every draft alongside, in the same way. -/
def Parallel (kind : ActionKind) (names : String → String → Prop) (change : Change α) : Prop :=
  ∀ ⦃d d' : Draft⦄, d.Alongside kind names d' → ∀ ⦃a : α⦄ ⦃e : Draft⦄, apply change d = (.ok a, e) →
    ∃ e', apply change d' = (.ok a, e') ∧ e.Alongside kind names e'

namespace Parallel

protected theorem pure (a : α) : Parallel kind names (pure a : Change α) := by
  rintro d d' h _ _ ⟨⟩
  exact ⟨d', rfl, h⟩

/-- A draft that stands alongside itself still does so after a change. -/
theorem self {change : Change α} (hchange : Parallel kind Eq change) {d e : Draft} {a : α}
    (hd : d.Alongside kind Eq d) (h : apply change d = (.ok a, e)) : e.Alongside kind Eq e := by
  obtain ⟨e', h', he⟩ := hchange hd h
  obtain rfl : e = e' := congrArg Prod.snd (h.symm.trans h')
  exact he

end Parallel

/-- A new draft has no queries. -/
theorem declare_alongside {name filePath : String} {d : Draft}
    (h : declare kind name filePath = .ok d) : d.Alongside kind Eq d := by
  unfold declare at h
  split at h
  · cases h
  · cases h
    exact ⟨rfl, rfl, DraftStage.noConfusion, DraftStage.noConfusion, rfl, rfl, rfl⟩

/-! ## §2 Setters and configurations -/

/-- Drafts about which the same is said stay alongside one another, unless it is a query. -/
theorem Alongside.taking {d d' : Draft} (h : d.Alongside kind names d') {c : Content}
    (hquery : c.query = none) (hnew : c.incrementalQuery = none)
    (hname : ∀ name, c.name = some name → names name name) :
    (d.taking c).Alongside kind names (d'.taking c) where
  kind_eq := h.kind_eq
  kind_eq' := h.kind_eq'
  unfinished := DraftStage.noConfusion
  unfinished' := DraftStage.noConfusion
  query_eq := by simp [Draft.taking, hquery, h.query_eq]
  incrementalQuery_eq := by simp [Draft.taking, hnew, h.incrementalQuery_eq]
  name := by
    rcases hc : c.name with _ | name
    · simpa [Draft.taking, hc] using h.name
    · simpa [Draft.taking, hc] using hname name hc

theorem parallel_setter {s : Setter} (hquery : s.content.query = none)
    (hnew : s.content.incrementalQuery = none) : Parallel kind names s.change := by
  intro d d' h _ e heq
  rw [s.apply_change_of_ne_compiled h.unfinished, h.kind_eq] at heq
  rw [s.apply_change_of_ne_compiled h.unfinished', h.kind_eq']
  -- Whether the setter fits is a question of the kind, which the drafts have in common.
  cases hfault : s.fault? kind with
  | some fault =>
    rw [hfault] at heq
    cases heq
  | none =>
    rw [hfault] at heq
    cases heq
    have hname : s.content.name = none := by cases s <;> rfl
    exact ⟨_, rfl, h.taking hquery hnew fun name hsome => by simp [hname] at hsome⟩

theorem parallel_configure (hnames : ∀ name, names name name) (config : ActionConfig) :
    Parallel kind names (configure config) := by
  intro d d' h _ e heq
  have hkind : d'.kind = d.kind := h.kind_eq'.trans h.kind_eq.symm
  obtain ⟨⟨hdataset, hfits, hname⟩, rfl⟩ := (apply_configure_eq_ok_iff h.unfinished).1 heq
  refine ⟨d'.taking (contentOf config), ?_, h.taking rfl rfl fun name _ => hnames name⟩
  exact (apply_configure_eq_ok_iff h.unfinished').2 ⟨⟨hdataset, hkind ▸ hfits, hname⟩, rfl⟩

end SqlWorkflow.Draft
