import SqlWorkflow.Proofs.Session.Entries

/-!
# Kinds of validation errors

A graph keeps no more of a finding than its wording.  The wording begins in a way that tells the
kind of the finding (`FindingCause.opening_isPrefix_iff`), so the errors of one kind in a graph are
the findings of that kind about the entries of the session (`Session.errors_compile`).
-/

namespace SqlWorkflow

/-! ## §1 How messages begin -/

/-- What a finding is about. -/
inductive FindingKind where
  | keysTwice
  | component
  | duplicate
  | missing
  | ambiguous
  | cycle
  | outputless
  deriving DecidableEq, Repr

namespace FindingKind

/-- How the message of every finding of the kind begins. -/
def opening : FindingKind → String
  | .keysTwice => "Specify at most one of 'assertions.uniqueKey' and 'assertions.uniqueKeys'"
  | .component => "Action target "
  | .duplicate =>
    "Duplicate action name detected. Names within a schema must be unique across tables, "
  | .missing => "Missing dependency detected: Action \""
  | .ambiguous => "Ambiguous Action name: "
  | .cycle => "Circular dependency detected in chain: ["
  | .outputless => "Actions cannot resolve operations which do not produce output."

/-- No kind begins as another one does. -/
theorem eq_of_opening_isPrefix {k k' : FindingKind}
    (h : k.opening.toList <+: k'.opening.toList) : k = k' := by
  revert h
  cases k <;> cases k' <;> simp [opening]

end FindingKind

namespace FindingCause

/-- The kind of the finding. -/
def kind : FindingCause → FindingKind
  | .keysTwice => .keysTwice
  | .component _ => .component
  | .duplicate _ _ _ => .duplicate
  | .missing _ _ => .missing
  | .ambiguous _ _ => .ambiguous
  | .cycle _ => .cycle
  | .outputless => .outputless

/-- A text that goes on begins as before. -/
theorem isPrefix_append {first begun : String} (h : first.toList <+: begun.toList)
    (rest : String) : first.toList <+: (begun ++ rest).toList := by
  rw [String.toList_append]
  exact h.trans (List.prefix_append _ _)

theorem opening_isPrefix (c : FindingCause) : c.kind.opening.toList <+: c.message.toList := by
  -- Messages are put together from left to right, and the opening is the first part.
  cases c with
  | keysTwice => exact List.prefix_refl FindingKind.keysTwice.opening.toList
  | outputless => exact List.prefix_refl FindingKind.outputless.opening.toList
  | component e =>
    show _ <+: (FindingKind.component.opening ++ _ ++ _ ++ _ ++ _).toList
    iterate 4 apply isPrefix_append
    exact List.prefix_rfl
  | duplicate target first second =>
    show _ <+: (FindingKind.duplicate.opening ++ _ ++ _ ++ _ ++ _ ++ _ ++ _).toList
    iterate 6 apply isPrefix_append
    exact List.prefix_rfl
  | missing action reference =>
    show _ <+: (FindingKind.missing.opening ++ _ ++ _ ++ _ ++ _).toList
    iterate 4 apply isPrefix_append
    exact List.prefix_rfl
  | ambiguous reference candidates =>
    show _ <+: (FindingKind.ambiguous.opening ++ _ ++ _ ++ _ ++ _).toList
    iterate 4 apply isPrefix_append
    exact List.prefix_rfl
  | cycle targets =>
    show _ <+: (FindingKind.cycle.opening ++ _ ++ _).toList
    iterate 2 apply isPrefix_append
    exact List.prefix_rfl

/-- The kind can be told from the message. -/
theorem opening_isPrefix_iff (c : FindingCause) (k : FindingKind) :
    k.opening.toList <+: c.message.toList ↔ c.kind = k := by
  constructor
  · intro h
    -- Of two beginnings of one text one is a beginning of the other.
    rcases List.prefix_or_prefix_of_prefix h c.opening_isPrefix with hk | hk
    · exact (FindingKind.eq_of_opening_isPrefix hk).symm
    · exact FindingKind.eq_of_opening_isPrefix hk
  · rintro rfl
    exact c.opening_isPrefix

end FindingCause

/-- The validation errors of a kind. -/
def CompiledGraph.errors (g : CompiledGraph) (k : FindingKind) : List ValidationError :=
  g.graphErrors.validationErrors.filter fun v => k.opening.toList.isPrefixOf v.message.toList

/-! ## §2 Findings of a kind -/

namespace Entry

/-- The findings of a kind about the entries. -/
def findingsOf (entries : List Entry) : FindingKind → List Finding
  | .keysTwice => keyFindings entries
  | .component => componentFindings entries
  | .duplicate => duplicateFindings entries
  | .missing =>
    (entries.flatMap (referenceFindings entries)).filter fun f => f.cause.kind = .missing
  | .ambiguous =>
    (entries.flatMap (referenceFindings entries)).filter fun f => f.cause.kind = .ambiguous
  | .cycle => cycleFindings entries
  | .outputless => outputFindings entries

variable {entries : List Entry} {e : Entry} {f : Finding}

theorem kind_of_mem_keyFindings (h : f ∈ keyFindings entries) : f.cause.kind = .keysTwice := by
  obtain ⟨e, -, rfl⟩ := List.mem_map.1 h
  rfl

theorem kind_of_mem_componentFindings (h : f ∈ componentFindings entries) :
    f.cause.kind = .component := by
  obtain ⟨e, -, he⟩ := List.mem_flatMap.1 h
  obtain ⟨c, -, rfl⟩ := List.mem_map.1 he
  rfl

theorem kind_of_duplicateFinding {targetOf : Entry → Target} {pair : Nat × Nat}
    (h : duplicateFinding targetOf entries pair = some f) : f.cause.kind = .duplicate := by
  simp only [duplicateFinding, Option.bind_eq_bind, Option.bind_eq_some_iff] at h
  obtain ⟨first, -, second, -, hf⟩ := h
  cases hf
  rfl

theorem kind_of_mem_duplicateFindings (h : f ∈ duplicateFindings entries) :
    f.cause.kind = .duplicate := by
  rcases List.mem_append.1 h with h | h
  all_goals
    obtain ⟨pair, -, hf⟩ := List.mem_filterMap.1 h
    exact kind_of_duplicateFinding hf

theorem kind_of_mem_referenceFindings (h : f ∈ referenceFindings entries e) :
    f.cause.kind = .missing ∨ f.cause.kind = .ambiguous := by
  obtain ⟨r, -, hf⟩ := List.mem_filterMap.1 h
  cases hr : resolve entries r with
  | found i => simp [hr] at hf
  | missing =>
    simp only [hr, Option.some.injEq] at hf
    exact .inl (hf ▸ rfl)
  | ambiguous positions =>
    simp only [hr, Option.some.injEq] at hf
    exact .inr (hf ▸ rfl)

theorem kind_of_mem_cycleFindings (h : f ∈ cycleFindings entries) : f.cause.kind = .cycle := by
  obtain ⟨cycle, -, rfl⟩ := List.mem_map.1 h
  rfl

theorem kind_of_mem_outputFindings (h : f ∈ outputFindings entries) :
    f.cause.kind = .outputless := by
  obtain ⟨e, -, rfl⟩ := List.mem_map.1 h
  rfl

/-- Of findings of one kind all are of a kind or none. -/
theorem filter_kind {found : List Finding} {k' : FindingKind}
    (h : ∀ f ∈ found, f.cause.kind = k') (k : FindingKind) :
    found.filter (fun f => f.cause.kind = k) = if k' = k then found else [] := by
  split
  · next hk =>
    rw [List.filter_eq_self]
    intro f hf
    simp [h f hf, hk]
  · next hk =>
    rw [List.filter_eq_nil_iff]
    intro f hf
    simp [h f hf, hk]

theorem filter_findings (entries : List Entry) (k : FindingKind) :
    (Session.findings entries).filter (fun f => f.cause.kind = k) = findingsOf entries k := by
  have hreferences : ∀ f ∈ entries.flatMap (referenceFindings entries),
      f.cause.kind = .missing ∨ f.cause.kind = .ambiguous := by
    intro f hf
    obtain ⟨e, -, he⟩ := List.mem_flatMap.1 hf
    exact kind_of_mem_referenceFindings he
  simp only [Session.findings, List.filter_append,
    filter_kind fun _ => kind_of_mem_keyFindings,
    filter_kind fun _ => kind_of_mem_componentFindings,
    filter_kind fun _ => kind_of_mem_duplicateFindings,
    filter_kind fun _ => kind_of_mem_cycleFindings, filter_kind fun _ => kind_of_mem_outputFindings]
  -- References give findings of two kinds, all other checks findings of one.
  have hnone : k ≠ .missing → k ≠ .ambiguous →
      (entries.flatMap (referenceFindings entries)).filter (fun f => f.cause.kind = k) = [] := by
    intro hmissing hambiguous
    rw [List.filter_eq_nil_iff]
    intro f hf hk
    rw [decide_eq_true_eq] at hk
    rcases hreferences f hf with h | h
    · exact hmissing (hk.symm.trans h)
    · exact hambiguous (hk.symm.trans h)
  cases k with
  | missing => simp [findingsOf]
  | ambiguous => simp [findingsOf]
  | _ => simp [findingsOf, hnone]

end Entry

/-- The errors of a kind in a compiled graph are the findings of that kind. -/
theorem Session.errors_compile (s : Session) (k : FindingKind) :
    s.compile.errors k = (Entry.findingsOf s.entries k).map Finding.toError := by
  have hsame : ∀ f : Finding,
      k.opening.toList.isPrefixOf f.toError.message.toList = decide (f.cause.kind = k) := by
    intro f
    rw [Bool.eq_iff_iff, List.isPrefixOf_iff_prefix, decide_eq_true_eq]
    exact f.cause.opening_isPrefix_iff k
  rw [← Entry.filter_findings]
  show ((findings s.entries).map Finding.toError).filter _ = _
  rw [List.filter_map]
  congr 1
  exact List.filter_congr fun f _ => hsame f

/-- No name is reported twice exactly if no two entries share a runtime or a canonical target. -/
theorem Session.errors_duplicate_compile_eq_nil_iff (s : Session) :
    s.compile.errors .duplicate = [] ↔
      (s.entries.map (·.runtime)).Nodup ∧ (s.entries.map (·.canonical)).Nodup := by
  rw [errors_compile, List.map_eq_nil_iff]
  exact Entry.duplicateFindings_eq_nil_iff

end SqlWorkflow
