import SqlWorkflow.Proofs.Session.ErrorKinds

/-!
# The names of generated assertions

A generated assertion is named after the schema and the name of its table, joined by an
underscore; the database is left out.  Different tables can have one joined name, and then their
assertions collide, which is reported.  Nothing else can make generated assertions collide
(`Session.errors_duplicate_compile_eq_nil_iff_pairwise`).

- **§1** The names of the checks of one table; what a joined name and a kind of check make is taken
  apart again.
- **§2** The checks that are generated for an entry.
- **§3** The targets of generated assertions differ as their names do.
- **§4** When no two entries share a target.
-/

namespace SqlWorkflow

/-- Different names stay different under a table prefix. -/
theorem ProjectConfig.runtimeName_injective (config : ProjectConfig) :
    Function.Injective config.runtimeName := by
  intro name name' h
  unfold runtimeName at h
  split at h
  · split at h
    · exact h
    · exact (String.append_right_inj _).1 h
  · exact h

namespace Entry

/-! ## §1 Names of checks -/

/-- What the checks of a table are named after. -/
def stem (table : Target) : String := table.schema ++ "_" ++ table.name

/-- The name of the check that a key is unique. -/
def keyCheckName (stem : String) (i : Nat) : String :=
  stem ++ "_assertions" ++ "_uniqueKey_" ++ toString i

/-- The name of the check of all rows. -/
def rowCheckName (stem : String) : String := stem ++ "_assertions" ++ "_rowConditions"

/-- The name holds what the names of checks hold. -/
def NamedAsCheck (name : String) : Prop :=
  "_assertions_uniqueKey_".toList <:+: name.toList ∨
    "_assertions_rowConditions".toList <:+ name.toList

instance (name : String) : Decidable (NamedAsCheck name) := inferInstanceAs (Decidable (_ ∨ _))

theorem namedAsCheck_keyCheckName (stem : String) (i : Nat) :
    NamedAsCheck (keyCheckName stem i) := by
  left
  refine ⟨stem.toList, (toString i).toList, ?_⟩
  simp [keyCheckName]

theorem namedAsCheck_rowCheckName (stem : String) : NamedAsCheck (rowCheckName stem) := by
  right
  refine ⟨stem.toList, ?_⟩
  simp [rowCheckName]

/-- What stands before a name does not hide that it is the name of a check. -/
theorem NamedAsCheck.append {name : String} (h : NamedAsCheck name) (before : String) :
    NamedAsCheck (before ++ name) := by
  unfold NamedAsCheck
  rw [String.toList_append]
  rcases h with hkey | hrow
  · exact .inl (hkey.trans (List.suffix_append _ _).isInfix)
  · exact .inr (hrow.trans (List.suffix_append _ _))

/-- The number is what stands after the last underscore. -/
theorem keyCheckName_inj {first second : String} {i j : Nat}
    (h : keyCheckName first i = keyCheckName second j) : first = second ∧ i = j := by
  -- Read from the end, the digits go on up to the underscore.
  have hnumber : ∀ (stem : String) (n : Nat),
      (keyCheckName stem n).toList.reverse.takeWhile Char.isDigit =
        (Nat.toDigits 10 n).reverse := by
    intro stem n
    have hreverse : (keyCheckName stem n).toList.reverse = (Nat.toDigits 10 n).reverse ++
        '_' :: (stem ++ "_assertions_uniqueKey").toList.reverse := by
      simp [keyCheckName]
    rw [hreverse, List.takeWhile_append_of_pos]
    · simp
    · intro c hc
      exact Nat.isDigit_of_mem_toDigits (by decide) (by decide) (List.mem_reverse.1 hc)
  have hdigits := hnumber first i
  rw [h, hnumber second j, List.reverse_inj] at hdigits
  obtain rfl : j = i := by
    have hvalue := congrArg (Nat.ofDigitChars 10 · 0) hdigits
    simpa using hvalue
  unfold keyCheckName at h
  refine ⟨?_, rfl⟩
  rwa [String.append_left_inj, String.append_left_inj, String.append_left_inj] at h

theorem rowCheckName_inj {first second : String} (h : rowCheckName first = rowCheckName second) :
    first = second := by
  unfold rowCheckName at h
  exact (String.append_left_inj _).1 ((String.append_left_inj _).1 h)

/-- One ends in a digit, the other does not. -/
theorem keyCheckName_ne_rowCheckName (first second : String) (i : Nat) :
    keyCheckName first i ≠ rowCheckName second := by
  intro h
  have hrow : (rowCheckName second).toList.getLast? = some 's' := by
    simp [rowCheckName]
  have hkey : (keyCheckName first i).toList.getLast? = (Nat.toDigits 10 i).getLast? := by
    have hsplit : (keyCheckName first i).toList =
        (first ++ "_assertions_uniqueKey_").toList ++ Nat.toDigits 10 i := by
      simp [keyCheckName]
    rw [hsplit, List.getLast?_append_of_ne_nil _ Nat.toDigits_ne_nil]
  rw [← h, hkey] at hrow
  have hdigit : 's'.isDigit = true :=
    Nat.isDigit_of_mem_toDigits (by decide) (by decide) (List.mem_of_getLast? hrow)
  exact absurd hdigit (by decide)

/-! ## §2 The checks of an entry -/

/-- The names of the checks of an entry. -/
def checkNames (e : Entry) : List String := (checks e.canonical e.checkedAssertions).map (·.1)

/-- The keys of an entry are checked. -/
def ChecksKeys (e : Entry) : Prop := uniqueKeys e.checkedAssertions ≠ []

/-- The rows of an entry are checked. -/
def ChecksRows (e : Entry) : Prop := conditions e.checkedAssertions ≠ []

/-- The keys of both entries are checked, or the rows of both. -/
def ChecksAlike (e d : Entry) : Prop :=
  e.ChecksKeys ∧ d.ChecksKeys ∨ e.ChecksRows ∧ d.ChecksRows

instance (e d : Entry) : Decidable (ChecksAlike e d) :=
  inferInstanceAs (Decidable (_ ≠ _ ∧ _ ≠ _ ∨ _ ≠ _ ∧ _ ≠ _))

theorem checkNames_eq (e : Entry) :
    e.checkNames =
      (List.range (uniqueKeys e.checkedAssertions).length).map (keyCheckName (stem e.canonical)) ++
        if (conditions e.checkedAssertions).isEmpty then []
        else [rowCheckName (stem e.canonical)] := by
  unfold checkNames checks
  rw [List.map_append, List.map_map, List.range_eq_range', ← List.zipIdx_map_snd, List.map_map]
  congr 1
  split <;> rfl

theorem mem_checkNames_iff {e : Entry} {name : String} :
    name ∈ e.checkNames ↔
      (∃ i < (uniqueKeys e.checkedAssertions).length, keyCheckName (stem e.canonical) i = name) ∨
        e.ChecksRows ∧ rowCheckName (stem e.canonical) = name := by
  rw [checkNames_eq, List.mem_append, List.mem_map]
  apply or_congr
  · simp
  · unfold ChecksRows
    split
    · next hnone => simp [List.isEmpty_iff.1 hnone]
    · next hsome =>
      rw [List.isEmpty_iff] at hsome
      simp [hsome, eq_comm]

theorem namedAsCheck_of_mem_checkNames {e : Entry} {name : String} (h : name ∈ e.checkNames) :
    NamedAsCheck name := by
  rcases mem_checkNames_iff.1 h with ⟨i, -, rfl⟩ | ⟨-, rfl⟩
  · exact namedAsCheck_keyCheckName _ i
  · exact namedAsCheck_rowCheckName _

/-- The checks of one table have different names. -/
theorem nodup_checkNames (e : Entry) : e.checkNames.Nodup := by
  rw [checkNames_eq, List.nodup_append]
  refine ⟨?_, ?_, ?_⟩
  · apply List.nodup_range.map
    intro i j heq
    exact (keyCheckName_inj heq).2
  · split <;> simp
  · -- The one check of the rows is named as no check of a key.
    intro name hname name' hname'
    obtain ⟨i, -, rfl⟩ := List.mem_map.1 hname
    split at hname'
    · cases hname'
    · rw [List.mem_singleton.1 hname']
      exact keyCheckName_ne_rowCheckName _ _ i

/-- The checks of two tables have different names exactly if the tables have different joined names
or are not checked alike. -/
theorem disjoint_checkNames_iff {e d : Entry} :
    List.Disjoint e.checkNames d.checkNames ↔
      (stem e.canonical = stem d.canonical → ¬ ChecksAlike e d) := by
  constructor
  · rintro hdisjoint hstem (⟨hkeys, hkeys'⟩ | ⟨hrows, hrows'⟩)
    · -- The first keys of both are checked under one name.
      apply hdisjoint (a := keyCheckName (stem e.canonical) 0)
      · exact mem_checkNames_iff.2 (.inl ⟨0, List.length_pos_iff.2 hkeys, rfl⟩)
      · exact mem_checkNames_iff.2 (.inl ⟨0, List.length_pos_iff.2 hkeys', by rw [hstem]⟩)
    · apply hdisjoint (a := rowCheckName (stem e.canonical))
      · exact mem_checkNames_iff.2 (.inr ⟨hrows, rfl⟩)
      · exact mem_checkNames_iff.2 (.inr ⟨hrows', by rw [hstem]⟩)
  · intro hdifferent name hname hname'
    rcases mem_checkNames_iff.1 hname with ⟨i, hi, rfl⟩ | ⟨hrows, rfl⟩
    · rcases mem_checkNames_iff.1 hname' with ⟨j, hj, heq⟩ | ⟨-, heq⟩
      · apply hdifferent (keyCheckName_inj heq.symm).1
        exact .inl ⟨List.ne_nil_of_length_pos (Nat.zero_lt_of_lt hi),
          List.ne_nil_of_length_pos (Nat.zero_lt_of_lt hj)⟩
      · exact keyCheckName_ne_rowCheckName _ _ _ heq.symm
    · rcases mem_checkNames_iff.1 hname' with ⟨j, -, heq⟩ | ⟨hrows', heq⟩
      · exact keyCheckName_ne_rowCheckName _ _ _ heq
      · exact hdifferent (rowCheckName_inj heq.symm) (.inr ⟨hrows, hrows'⟩)

/-! ## §3 Targets of generated assertions -/

/-- The canonical target of a generated assertion. -/
def checkTarget (config : ProjectConfig) (name : String) : Target where
  database := config.defaultDatabase
  schema := config.assertionSchema
  name := name

section Targets

variable (config : ProjectConfig)

theorem map_canonical_checkEntries (e : Entry) (position : Nat) :
    (checkEntries config e position).map (·.canonical) = e.checkNames.map (checkTarget config) := by
  rw [checkEntries_eq, checkNames, List.map_map, List.map_map]
  rfl

theorem map_runtime_checkEntries (e : Entry) (position : Nat) :
    (checkEntries config e position).map (·.runtime) =
      e.checkNames.map fun name => runtimeTarget config .assertion (checkTarget config name) := by
  rw [checkEntries_eq, checkNames, List.map_map, List.map_map]
  rfl

/-- What is said of the checks of an entry by name is said of all generated entries by name. -/
theorem map_generated {α : Type} {say : Entry → α} {sayName : String → α}
    (h : ∀ e position, (checkEntries config e position).map say = e.checkNames.map sayName)
    (rs : List Registration) :
    (ofRegistrations config rs).map say =
      (declared config rs).map say ++ ((declared config rs).flatMap checkNames).map sayName := by
  rw [map_ofRegistrations fun e position _ => h e position, List.map_flatMap]

/-- A table prefix does not hide the name of a check. -/
theorem NamedAsCheck.runtimeName {name : String} (h : NamedAsCheck name) :
    NamedAsCheck (config.runtimeName name) := by
  unfold ProjectConfig.runtimeName
  split
  · split
    · exact h
    · exact h.append _
  · exact h

/-- An entry that is not named as a check has the canonical target of none. -/
theorem canonical_ne_checkTarget {e : Entry} (he : ¬ NamedAsCheck e.canonical.name) {name : String}
    (hname : NamedAsCheck name) : e.canonical ≠ checkTarget config name := by
  intro heq
  rw [heq] at he
  exact he hname

theorem runtime_ne_checkTarget {e : Entry} (hnamed : Named config e)
    (he : ¬ NamedAsCheck e.canonical.name) {name : String} (hname : NamedAsCheck name) :
    e.runtime ≠ runtimeTarget config .assertion (checkTarget config name) := by
  intro heq
  have hnames := congrArg Target.name heq
  rw [hnamed.runtime_eq] at hnames
  unfold runtimeTarget at hnames
  -- A declaration keeps its name; all other names get the prefix that the check's name gets.
  split at hnames
  · apply he
    rw [hnames]
    exact hname.runtimeName config
  · have heq : e.canonical.name = name := config.runtimeName_injective hnames
    exact he (heq ▸ hname)

end Targets

end Entry

/-! ## §4 When no two entries share a target -/

namespace Session

open Entry

/-- If no two registrations share a target and none is named as a check, no name is reported twice
exactly if no two of them with one joined name are checked alike. -/
theorem errors_duplicate_compile_eq_nil_iff_pairwise (s : Session)
    (hruntime : ((declared s.config s.registrations).map (·.runtime)).Nodup)
    (hcanonical : ((declared s.config s.registrations).map (·.canonical)).Nodup)
    (hnames : ∀ r ∈ s.registrations, ¬ NamedAsCheck r.name) :
    s.compile.errors .duplicate = [] ↔
      (declared s.config s.registrations).Pairwise fun e d =>
        stem e.canonical = stem d.canonical → ¬ ChecksAlike e d := by
  have hdeclared : ∀ e ∈ declared s.config s.registrations,
      Named s.config e ∧ ¬ NamedAsCheck e.canonical.name := by
    intro e he
    obtain ⟨r, hr, rfl⟩ := List.mem_map.1 he
    exact ⟨named_ofRegistration s.config r none, hnames r hr⟩
  have hchecks : ∀ name ∈ (declared s.config s.registrations).flatMap checkNames,
      NamedAsCheck name := by
    intro name hname
    obtain ⟨e, -, he⟩ := List.mem_flatMap.1 hname
    exact namedAsCheck_of_mem_checkNames he
  have hgenerated : ((declared s.config s.registrations).flatMap checkNames).Nodup ↔
      (declared s.config s.registrations).Pairwise fun e d =>
        stem e.canonical = stem d.canonical → ¬ ChecksAlike e d := by
    rw [List.nodup_flatMap]
    constructor
    · rintro ⟨-, hdisjoint⟩
      exact hdisjoint.imp fun h => disjoint_checkNames_iff.1 h
    · intro hdifferent
      exact ⟨fun e _ => nodup_checkNames e, hdifferent.imp fun h => disjoint_checkNames_iff.2 h⟩
  rw [errors_duplicate_compile_eq_nil_iff, ← hgenerated]
  show ((ofRegistrations s.config s.registrations).map _).Nodup ∧
    ((ofRegistrations s.config s.registrations).map _).Nodup ↔ _
  rw [map_generated s.config (map_runtime_checkEntries s.config),
    map_generated s.config (map_canonical_checkEntries s.config), List.nodup_append,
    List.nodup_append]
  -- Three reasons for two entries not to share a target: neither was generated, both were, or one.
  constructor
  · rintro ⟨-, -, hnodup, -⟩
    exact hnodup.of_map
  · intro hnodup
    refine ⟨⟨hruntime, hnodup.map ?_, ?_⟩, hcanonical, hnodup.map ?_, ?_⟩
    · intro name name' heq
      exact s.config.runtimeName_injective (congrArg Target.name heq)
    · intro t ht t' ht'
      obtain ⟨e, he, rfl⟩ := List.mem_map.1 ht
      obtain ⟨name, hname, rfl⟩ := List.mem_map.1 ht'
      obtain ⟨hnamed, hother⟩ := hdeclared e he
      exact runtime_ne_checkTarget s.config hnamed hother (hchecks name hname)
    · intro name name' heq
      exact congrArg Target.name heq
    · intro t ht t' ht'
      obtain ⟨e, he, rfl⟩ := List.mem_map.1 ht
      obtain ⟨name, hname, rfl⟩ := List.mem_map.1 ht'
      exact canonical_ne_checkTarget s.config (hdeclared e he).2 (hchecks name hname)

/-- Two tables with one joined name, the keys of one and the rows of the other checked. -/
theorem errors_duplicate_compile_eq_nil_iff_pairwise_regions :
    let orders : Registration :=
      { filePath := "orders.sqlx", schema := some "sales_eu", name := "orders"
        payload := .table { query := "SELECT 1 AS id", assertions := { uniqueKey := ["id"] } } }
    let euOrders : Registration :=
      { filePath := "eu_orders.sqlx", schema := some "sales", name := "eu_orders"
        payload := .table { query := "SELECT 1 AS id", assertions := { nonNull := ["id"] } } }
    let s : Session :=
      { config := {}, coreVersion := "3.0.0", registrations := [orders, euOrders] }
    ((declared s.config s.registrations).map (·.runtime)).Nodup ∧
      ((declared s.config s.registrations).map (·.canonical)).Nodup ∧
      (∀ r ∈ s.registrations, ¬ NamedAsCheck r.name) ∧
      (declared s.config s.registrations).map (stem ·.canonical) =
        ["sales_eu_orders", "sales_eu_orders"] ∧
      s.compile.errors .duplicate = [] := by
  intro orders euOrders s
  have hruntime : ((declared s.config s.registrations).map (·.runtime)).Nodup := by
    decide +kernel
  have hcanonical : ((declared s.config s.registrations).map (·.canonical)).Nodup := by
    decide +kernel
  have hnames : ∀ r ∈ s.registrations, ¬ NamedAsCheck r.name := by decide +kernel
  refine ⟨hruntime, hcanonical, hnames, by decide +kernel, ?_⟩
  apply (s.errors_duplicate_compile_eq_nil_iff_pairwise hruntime hcanonical hnames).2
  decide +kernel

/-- Two tables with one joined name, the rows of both checked: no two registrations share a target,
and no name is that of a check, but a name is reported twice. -/
theorem errors_duplicate_compile_regions_ne_nil :
    let orders : Registration :=
      { filePath := "orders.sqlx", schema := some "sales_eu", name := "orders"
        payload := .table { query := "SELECT 1 AS id", assertions := { nonNull := ["id"] } } }
    let euOrders : Registration :=
      { filePath := "eu_orders.sqlx", schema := some "sales", name := "eu_orders"
        payload := .table { query := "SELECT 1 AS id", assertions := { nonNull := ["id"] } } }
    let s : Session :=
      { config := {}, coreVersion := "3.0.0", registrations := [orders, euOrders] }
    ((declared s.config s.registrations).map (·.runtime)).Nodup ∧
      ((declared s.config s.registrations).map (·.canonical)).Nodup ∧
      (∀ r ∈ s.registrations, ¬ NamedAsCheck r.name) ∧ s.compile.errors .duplicate ≠ [] := by
  intro orders euOrders s
  refine ⟨by decide +kernel, by decide +kernel, by decide +kernel, ?_⟩
  rw [ne_eq, s.errors_duplicate_compile_eq_nil_iff]
  rintro ⟨hruntime, -⟩
  revert hruntime
  decide +kernel

end Session

end SqlWorkflow
