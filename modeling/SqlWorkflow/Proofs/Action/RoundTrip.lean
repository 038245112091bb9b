import SqlWorkflow.Action.Config
import SqlWorkflow.Proofs.Document.Records
import SqlWorkflow.Proofs.Json.Depth

/-!
# Documentation and options are read back

The documentation of a column is read by trying its two forms after it has been set aside; it nests
to any depth, and how deep its JSON text is follows from how deep its records nest.

- **§1** Documentation of columns (`takes_columnDoc`), and the depth of its JSON
  (`ColumnTree.fits_toJson`).
- **§2** Documentation of actions (`takes_descriptor`).
- **§3** Options of a dataset (`takes_bigquery`).
-/

namespace SqlWorkflow

open Decode

/-! ## §1 Columns -/

namespace ColumnTree

mutual

/-- The number of containers that stand inside one another in the JSON of the tree. -/
def depth : ColumnTree → Nat
  | .text _ => 0
  | .record _ columns => 1 + depths columns

/-- The same for nested columns, whose own container stands around them if there are any. -/
def depths : List (String × ColumnTree) → Nat
  | [] => 0
  | (_, tree) :: rest => max (1 + tree.depth) (depths rest)

end

theorem depths_le_iff {columns : List (String × ColumnTree)} {n : Nat} :
    depths columns ≤ n + 1 ↔ ∀ column ∈ columns, column.2.depth ≤ n := by
  induction columns with
  | nil => exact ⟨fun _ c hc => (List.not_mem_nil hc).elim, fun _ => Nat.zero_le _⟩
  | cons column columns ih =>
    rw [depths, Nat.max_le, ih, List.forall_mem_cons]
    exact and_congr_left' (by omega)

theorem depths_cons_ne_zero (column : String × ColumnTree) (rest : List (String × ColumnTree)) :
    depths (column :: rest) ≠ 0 := by
  rw [depths]
  omega

mutual

/-- There is room for the JSON of a tree exactly if its depth says so. -/
theorem fits_toJson : ∀ (tree : ColumnTree) (n : Nat), tree.toJson.Fits n ↔ tree.depth ≤ n
  | .text _, n => ⟨fun _ => Nat.zero_le n, fun _ => trivial⟩
  | .record description columns, 0 => by
    refine ⟨fun h => absurd h.1 (Nat.lt_irrefl 0), fun h => ?_⟩
    rw [depth] at h
    omega
  | .record description columns, n + 1 => by
    have hdescription : ∀ v ∈ description.map Json.str, v.Fits n := by
      simp [Json.Fits]
    have hcolumns : (∀ v ∈ if columns.isEmpty then none else some (.obj (membersJson columns)),
        Json.Fits n v) ↔ depths columns ≤ n := by
      -- A record without nested columns has no object for them.
      match columns, n with
      | [], n => simp [depths]
      | column :: rest, 0 => simp [Json.Fits, depths_cons_ne_zero]
      | column :: rest, m + 1 =>
        have hmembers := fits_membersJson (column :: rest) m
        simp [Json.Fits, depths_le_iff, hmembers]
    rw [toJson, Json.fits_present, depth, Nat.add_comm 1, Nat.succ_le_succ_iff, ← hcolumns]
    rw [List.forall_mem_cons, List.forall_mem_singleton]
    exact and_iff_right hdescription

theorem fits_membersJson : ∀ (columns : List (String × ColumnTree)) (n : Nat),
    Json.AllMembersFit n (membersJson columns) ↔ ∀ column ∈ columns, column.2.depth ≤ n
  | [], _ => ⟨fun _ c hc => (List.not_mem_nil hc).elim, fun _ => trivial⟩
  | (_, tree) :: rest, n => by
    rw [membersJson, Json.AllMembersFit, fits_toJson tree n, fits_membersJson rest n,
      List.forall_mem_cons]

end

mutual

theorem whole_toJson : ∀ tree : ColumnTree, tree.toJson.Whole
  | .text _ => trivial
  | .record description columns => by
    have hcolumns := whole_membersJson columns
    refine Json.whole_present (List.forall_mem_cons.2 ⟨?_, List.forall_mem_singleton.2 ?_⟩)
    · simp [Json.Whole]
    · intro v hv
      split at hv
      · cases hv
      · cases hv
        exact hcolumns

theorem whole_membersJson : ∀ columns : List (String × ColumnTree),
    Json.AllMembersWhole (membersJson columns)
  | [] => trivial
  | (_, tree) :: rest => ⟨whole_toJson tree, whole_membersJson rest⟩

end

end ColumnTree

namespace ColumnDoc

/-- The number of containers that stand inside one another in the JSON of the documentation. -/
def depth (doc : ColumnDoc) : Nat := doc.tree.depth

mutual

/-- The document of a column's JSON holds the documentation. -/
theorem ofDoc?_toJson : ∀ (tree : ColumnTree) (h : tree.Ordered),
    ofDoc? tree.toJson.toDoc = some ⟨tree, h⟩
  | .text _, _ => rfl
  | .record description columns, h => by
    obtain ⟨docs, hmembers, hdocs⟩ := members?_membersJson columns h.2
    -- The columns were in order when they were written, so putting them in order changes nothing.
    have hsorted : SortedEntries docs := by
      have hordered := h.1
      rw [← hdocs, SortedEntries, trees, List.pairwise_map] at hordered
      exact hordered
    have hrecord : ColumnDoc.record description (Dict.ofList docs) =
        ⟨.record description columns, h⟩ := by
      have hkept : Dict.ofList docs = ⟨docs, hsorted⟩ := Dict.ofList_entries ⟨docs, hsorted⟩
      subst hdocs
      rw [hkept]
      rfl
    -- What the member with the nested columns adds, whether it is there or not.
    have hcolumns : ∃ found, entries? (given [("columns",
        if columns.isEmpty then none else some (.obj (ColumnTree.membersJson columns)))]) =
          some found ∧ found.description = none ∧ found.columns.getD [] = docs := by
      cases columns with
      | nil =>
        cases hmembers
        exact ⟨{}, rfl, rfl, rfl⟩
      | cons column rest =>
        refine ⟨{ columns := some docs }, ?_, rfl, rfl⟩
        change entries? [(.text "columns", .map (Json.toDocEntries _))] = _
        simp [entries?, hmembers]
    obtain ⟨found, hfound, hnone, hdocs'⟩ := hcolumns
    rw [← hrecord, ColumnTree.toJson, toDoc_present]
    cases description with
    | none =>
      rw [Option.map_none, given_none, ofDoc?, hfound]
      simp [hnone, hdocs']
    | some s =>
      rw [Option.map_some, given_some, Json.toDoc, ofDoc?, entries?, hfound]
      simp [hnone, hdocs']

theorem members?_membersJson : ∀ (columns : List (String × ColumnTree)),
    ColumnTree.AllOrdered columns →
      ∃ docs, members? (Json.toDocEntries (ColumnTree.membersJson columns)) = some docs ∧
        trees docs = columns
  | [], _ => ⟨[], rfl, rfl⟩
  | (name, tree) :: rest, h => by
    have hfirst := ofDoc?_toJson tree h.1
    obtain ⟨docs, hothers, hdocs⟩ := members?_membersJson rest h.2
    refine ⟨(name, ⟨tree, h.1⟩) :: docs, ?_, congrArg (List.cons (name, tree)) hdocs⟩
    rw [ColumnTree.membersJson, Json.toDocEntries, members?, hfirst, hothers]
    rfl

end

theorem takes (doc : ColumnDoc) : Takes decode doc.toJson doc :=
  takes_firstOf (by rw [toJson, ofDoc?_toJson doc.tree doc.ordered])

theorem fits_toJson (doc : ColumnDoc) (n : Nat) : doc.toJson.Fits n ↔ doc.depth ≤ n :=
  doc.tree.fits_toJson n

theorem whole_toJson (doc : ColumnDoc) : doc.toJson.Whole :=
  doc.tree.whole_toJson

/-- A record in a record, and so on to the given level. -/
def nested : Nat → ColumnDoc
  | 0 => .text "text"
  | levels + 1 => .record none (Dict.ofList [("c", nested levels)])

theorem depth_nested (levels : Nat) : (nested levels).depth = 2 * levels := by
  induction levels with
  | zero => rfl
  | succ levels ih =>
    change 1 + max (1 + (nested levels).depth) 0 = _
    rw [ih]
    omega

end ColumnDoc

/-! ## §2 Actions -/

namespace ActionDescriptor

/-- No column's documentation is deeper than `n` containers. -/
def Within (n : Nat) (d : ActionDescriptor) : Prop :=
  ∀ column ∈ d.columns.entries, column.2.depth ≤ n

theorem takes (d : ActionDescriptor) : Takes decode d.toJson d := by
  have hfills : Fills shape.fields
      [("description", d.description.map .str), ("columns", columnsJson d.columns)] {} d :=
    .optional (carries_text d.description) rfl <|
    .optional (carries_dict fun column _ => column.2.takes) rfl <|
    .nil d
  exact hfills.takes (by decide)

theorem fits_toJson (d : ActionDescriptor) (n : Nat) : d.toJson.Fits (n + 2) ↔ d.Within n := by
  have hdescription : ∀ v ∈ d.description.map Json.str, v.Fits (n + 1) :=
    fun v hv => (Json.boundedMember_map Json.bounded_str d.description v hv).fits
  have hcolumns : (∀ v ∈ columnsJson d.columns, v.Fits (n + 1)) ↔ d.Within n := by
    have hdict : (Json.ofDict ColumnDoc.toJson d.columns).Fits (n + 1) ↔ d.Within n :=
      Json.fits_ofDict.trans (forall₂_congr fun column _ => column.2.fits_toJson n)
    cases hempty : d.columns.isEmpty with
    | true =>
      have hnone : d.columns.entries = [] := List.isEmpty_iff.1 hempty
      simp [columnsJson, hempty, Within, hnone]
    | false => simp [columnsJson, hempty, hdict]
  rw [toJson, Json.fits_present, List.forall_mem_cons, List.forall_mem_singleton,
    and_iff_right hdescription, hcolumns]

theorem whole_toJson (d : ActionDescriptor) : d.toJson.Whole := by
  refine Json.whole_present (List.forall_mem_cons.2 ⟨?_, List.forall_mem_singleton.2 ?_⟩)
  · exact fun v hv => (Json.boundedMember_map (n := 0) Json.bounded_str d.description v hv).whole
  · exact Json.forall_mem_unless (Json.whole_ofDict fun column _ => column.2.whole_toJson)

end ActionDescriptor

/-! ## §3 Options -/

namespace BigQueryOptions

theorem carries_days (days? : Option UInt32) :
    Carries (option (natural 32)) (days?.map fun n => .nat n.toNat) none
      (days?.map UInt32.toNat) := by
  cases days? with
  | none => exact .inr ⟨rfl, rfl⟩
  | some n =>
    have hnull : Json.nat n.toNat ≠ .null := fun h => Json.noConfusion h
    exact .inl ⟨_, rfl, takes_option (takes_natural n.toNat_lt) hnull⟩

theorem takes (o : BigQueryOptions) : Takes decode o.toJson o := by
  -- A number of days is read as a natural number and stored as one of 32 bits.
  have hstored : (o.partitionExpirationDays.map UInt32.toNat).map UInt32.ofNat =
      o.partitionExpirationDays := by
    simp [Option.map_map, Function.comp_def]
  have hread : Takes decode o.toJson { o with partitionExpirationDays :=
      (o.partitionExpirationDays.map UInt32.toNat).map UInt32.ofNat } := by
    refine Fills.takes (?_ : Fills shape.fields _ {} _) (by decide)
    refine .optional (carries_text o.partitionBy) rfl ?_
    refine .optional (carries_list fun s _ => takes_string s) rfl ?_
    refine .optional (carries_text o.updatePartitionFilter) rfl ?_
    refine .optional (carries_dict fun label _ => takes_string label.2) rfl ?_
    refine .optional (carries_days o.partitionExpirationDays) rfl ?_
    refine .optional (carries_option (fun b _ => takes_bool b) fun _ => by simp) rfl ?_
    refine .optional (carries_dict fun entry _ => takes_string entry.2) rfl ?_
    exact .nil _
  rwa [hstored] at hread

/-- Texts, lists and dictionaries of texts stand in one object. -/
theorem bounded_toJson (o : BigQueryOptions) (n : Nat) : o.toJson.Bounded (n + 2) := by
  refine Json.bounded_present fun member hmember => ?_
  simp only [List.mem_cons, List.not_mem_nil, or_false] at hmember
  rcases hmember with rfl | rfl | rfl | rfl | rfl | rfl | rfl
  · exact Json.boundedMember_map Json.bounded_str o.partitionBy
  · exact Json.forall_mem_unless (Json.bounded_strings o.clusterBy)
  · exact Json.boundedMember_map Json.bounded_str o.updatePartitionFilter
  · exact Json.forall_mem_unless (Json.bounded_ofDict fun label _ => Json.bounded_str label.2)
  · exact Json.boundedMember_map
      (fun days => Json.bounded_nat (Nat.lt_trans days.toNat_lt (by decide)))
      o.partitionExpirationDays
  · exact Json.boundedMember_map Json.bounded_bool o.requirePartitionFilter
  · exact Json.forall_mem_unless (Json.bounded_ofDict fun entry _ => Json.bounded_str entry.2)

end BigQueryOptions

end SqlWorkflow
