import SqlWorkflow.Proofs.Session.Entries

/-!
# Uniqueness is checked exactly

Entries must be unique in two ways, by runtime target and by canonical target.  An entry whose
target an earlier entry has too is reported against the earliest of these; the earliest one can
differ between the two ways, and only if it does is the entry reported in both
(`Entry.duplicateFindings_exact`).

- **§1** Collisions, said without the check: which entry an entry is reported against.
- **§2** The check of one way finds these and no others, in the order of the entries.
- **§3** What is reported about both ways together.
-/

namespace SqlWorkflow.Entry

/-! ## §1 Collisions -/

/-- The ways in which entries must be unique. -/
inductive Naming where
  /-- By the target that the warehouse uses. -/
  | runtime
  /-- By the target that authors use. -/
  | canonical
  deriving DecidableEq, Repr

namespace Naming

/-- The target of an entry that must be unique. -/
def target : Naming → Entry → Target
  | .runtime => Entry.runtime
  | .canonical => Entry.canonical

end Naming

/-- The entry at a position has the target of an earlier entry. -/
def Repeats (naming : Naming) (entries : List Entry) (j : Nat) : Prop :=
  ∃ k < j, ∃ e d, entries[k]? = some e ∧ entries[j]? = some d ∧ naming.target e = naming.target d

/-- The first position is that of the earliest entry with the target of the entry at the second
position, which comes later. -/
structure Earliest (naming : Naming) (entries : List Entry) (i j : Nat) : Prop where
  before : i < j
  same : ∃ e d, entries[i]? = some e ∧ entries[j]? = some d ∧ naming.target e = naming.target d
  least : ∀ k < i, ∀ e d, entries[k]? = some e → entries[j]? = some d →
    naming.target e ≠ naming.target d

/-- A report that two entries, given by position, share a target. -/
structure Collision where
  naming : Naming
  first : Nat
  second : Nat
  deriving DecidableEq, Repr

namespace Collision

/-- The positions of the two entries. -/
def pair (c : Collision) : Nat × Nat := (c.first, c.second)

/-- Is the entry at the position reported, and in this way? -/
def isAbout (naming : Naming) (j : Nat) (c : Collision) : Bool :=
  c.naming = naming && c.second = j

/-- The finding names the two entries, and stands in the file of the later one. -/
def Names (entries : List Entry) (c : Collision) (f : Finding) : Prop :=
  ∃ first second, entries[c.first]? = some first ∧ entries[c.second]? = some second ∧
    f = ⟨second.registration.filePath,
      .duplicate (c.naming.target second) first.registration.filePath
        second.registration.filePath,
      some (c.naming.target second)⟩

end Collision

/-- The findings report the collisions of some entries, and these only. -/
structure Reports (entries : List Entry) (collisions : List Collision) (found : List Finding) :
    Prop where
  /-- One finding for each collision, in their order. -/
  inOrder : List.Forall₂ (Collision.Names entries) collisions found
  genuine : ∀ c ∈ collisions, Earliest c.naming entries c.first c.second
  /-- No pair of entries is reported twice, in whichever way. -/
  nodup : (collisions.map Collision.pair).Nodup
  runtime : ∀ j, Repeats .runtime entries j → ∃ i, Earliest .runtime entries i j ∧
    collisions.filter (Collision.isAbout .runtime j) = [⟨.runtime, i, j⟩]
  /-- A pair that is reported by runtime target already is passed over. -/
  canonical : ∀ j, Repeats .canonical entries j → ∃ i, Earliest .canonical entries i j ∧
    collisions.filter (Collision.isAbout .canonical j) =
      if ⟨.runtime, i, j⟩ ∈ collisions then [] else [⟨.canonical, i, j⟩]

/-! ## §2 One way of being unique -/

variable {naming : Naming} {entries : List Entry} {i j : Nat}

/-- What the check of one way pairs up is each repeated target with its first occurrence. -/
theorem mem_collisions_map_iff :
    (i, j) ∈ collisions (entries.map naming.target) ↔ Earliest naming entries i j := by
  -- The index of a target is the least position at which an entry has it.
  have hfirst : ∀ d, i < (entries.map naming.target).length →
      ((entries.map naming.target).idxOf (naming.target d) = i ↔
        (∃ e, entries[i]? = some e ∧ naming.target e = naming.target d) ∧
          ∀ k < i, ∀ e, entries[k]? = some e → naming.target e ≠ naming.target d) := by
    intro d hi
    rw [List.idxOf, List.findIdx_eq hi]
    rw [List.length_map] at hi
    apply and_congr
    · simp [List.getElem?_eq_getElem hi]
    · apply forall₂_congr
      intro k hk
      simp [List.getElem?_eq_getElem (Nat.lt_trans hk hi)]
  rw [mem_collisions_iff]
  constructor
  · rintro ⟨t, ht, hidx, hlt⟩
    rw [List.getElem?_map, Option.map_eq_some_iff] at ht
    obtain ⟨d, hd, rfl⟩ := ht
    have hi : i < (entries.map naming.target).length := by
      rw [List.length_map]
      exact Nat.lt_trans hlt (List.getElem?_eq_some_iff.1 hd).1
    obtain ⟨⟨e, he, hsame⟩, hleast⟩ := (hfirst d hi).1 hidx
    refine ⟨hlt, ⟨e, d, he, hd, hsame⟩, ?_⟩
    intro k hk e' d' he' hd'
    obtain rfl : d = d' := Option.some.inj (hd.symm.trans hd')
    exact hleast k hk e' he'
  · rintro ⟨hlt, ⟨e, d, he, hd, hsame⟩, hleast⟩
    refine ⟨naming.target d, by simp [hd], ?_, hlt⟩
    apply (hfirst d _).2
    · exact ⟨⟨e, he, hsame⟩, fun k hk e' he' => hleast k hk e' d he' hd⟩
    · rw [List.length_map]
      exact (List.getElem?_eq_some_iff.1 he).1

/-- Of all earlier entries with a target one is the earliest. -/
theorem Repeats.exists_earliest (h : Repeats naming entries j) :
    ∃ i, Earliest naming entries i j := by
  obtain ⟨k, hk, e, d, he, hd, hsame⟩ := h
  have hmem : naming.target d ∈ (entries.map naming.target).take j := by
    rw [List.mem_take_iff_getElem]
    have hj := (List.getElem?_eq_some_iff.1 hd).1
    refine ⟨k, by simp; omega, ?_⟩
    rw [List.getElem_map, ← hsame]
    congr 1
    exact (List.getElem?_eq_some_iff.1 he).2
  have htarget : naming.target d ∈ entries.map naming.target :=
    List.mem_map_of_mem (List.mem_of_getElem? hd)
  refine ⟨(entries.map naming.target).idxOf (naming.target d), mem_collisions_map_iff.1 ?_⟩
  apply mem_collisions_iff.2
  exact ⟨naming.target d, by simp [hd], rfl, (List.mem_take_iff_idxOf_lt htarget).1 hmem⟩

/-- The pairs come in the order of their later positions, so no position is paired up twice. -/
theorem pairwise_collisions (targets : List Target) :
    (collisions targets).Pairwise fun p q => p.2 < q.2 := by
  have hpositions : targets.zipIdx.Pairwise fun a b => a.2 < b.2 := by
    rw [← List.pairwise_map, List.zipIdx_map_snd]
    exact List.pairwise_lt_range'
  apply hpositions.filterMap
  rintro ⟨t, i⟩ ⟨t', i'⟩ hlt p hp q hq
  simp only [Option.ite_none_right_eq_some, Option.some.injEq] at hp hq
  rw [← hp.2, ← hq.2]
  exact hlt

/-- The earliest entry is one entry. -/
theorem Earliest.unique {i' : Nat} (h : Earliest naming entries i j)
    (h' : Earliest naming entries i' j) : i = i' := by
  obtain ⟨e, d, he, hd, hsame⟩ := h.same
  obtain ⟨e', d', he', hd', hsame'⟩ := h'.same
  obtain rfl : d = d' := Option.some.inj (hd.symm.trans hd')
  apply Nat.le_antisymm
  · by_contra hlt
    exact h.least i' (by omega) e' d he' hd hsame'
  · by_contra hlt
    exact h'.least i (by omega) e d he hd hsame

/-- Each pair that is found gives one finding, which names the two entries. -/
theorem forall₂_names (naming : Naming) {pairs : List (Nat × Nat)}
    (h : ∀ p ∈ pairs, p ∈ collisions (entries.map naming.target)) :
    List.Forall₂ (Collision.Names entries) (pairs.map fun p => ⟨naming, p.1, p.2⟩)
      (pairs.filterMap (duplicateFinding naming.target entries)) := by
  induction pairs with
  | nil => exact .nil
  | cons p pairs ih =>
    have hrest := ih fun q hq => h q (List.mem_cons_of_mem p hq)
    obtain ⟨f, hf⟩ := Option.isSome_iff_exists.1
      (duplicateFinding_isSome naming.target (h p List.mem_cons_self))
    rw [List.filterMap_cons_some hf]
    refine .cons ?_ hrest
    simp only [duplicateFinding, Option.bind_eq_bind, Option.bind_eq_some_iff] at hf
    obtain ⟨first, hfirst, second, hsecond, hf⟩ := hf
    exact ⟨first, second, hfirst, hsecond, (Option.some.inj hf).symm⟩

/-! ## §3 Both ways together -/

/-- What is reported: all collisions by runtime target, and after them those by canonical target
that are between other pairs. -/
def reported (entries : List Entry) : List Collision :=
  let runtime := collisions (entries.map Naming.runtime.target)
  let canonical := (collisions (entries.map Naming.canonical.target)).filter fun p =>
    !runtime.contains p
  (runtime.map fun p => ⟨.runtime, p.1, p.2⟩) ++ canonical.map fun p => ⟨.canonical, p.1, p.2⟩

theorem mem_reported_runtime_iff :
    ⟨.runtime, i, j⟩ ∈ reported entries ↔ Earliest .runtime entries i j := by
  rw [← mem_collisions_map_iff]
  simp [reported]

theorem mem_reported_canonical_iff :
    ⟨.canonical, i, j⟩ ∈ reported entries ↔
      Earliest .canonical entries i j ∧ ¬ Earliest .runtime entries i j := by
  rw [← mem_collisions_map_iff, ← mem_collisions_map_iff]
  simp [reported]

theorem nodup_pairs (entries : List Entry) : ((reported entries).map Collision.pair).Nodup := by
  have hnodup : ∀ targets : List Target, (collisions targets).Nodup := by
    intro targets
    exact (pairwise_collisions targets).imp fun hlt heq => Nat.ne_of_lt hlt (congrArg Prod.snd heq)
  have hpairs : ∀ (naming : Naming) (pairs : List (Nat × Nat)),
      (pairs.map fun p => (⟨naming, p.1, p.2⟩ : Collision)).map Collision.pair = pairs := by
    intro naming pairs
    rw [List.map_map]
    exact List.map_id pairs
  rw [reported, List.map_append, hpairs, hpairs, List.nodup_append]
  refine ⟨hnodup _, (hnodup _).filter _, ?_⟩
  -- The second pass leaves out what the first has found.
  rintro p hp q hq rfl
  have hother := (List.mem_filter.1 hq).2
  simp [hp] at hother

/-- Of a list without repetitions a test that only one member passes keeps that member. -/
theorem filter_eq_singleton {α : Type} {p : α → Bool} {as : List α} {a : α} (hnodup : as.Nodup)
    (ha : a ∈ as) (hpa : p a) (hother : ∀ b ∈ as, p b → b = a) : as.filter p = [a] := by
  rw [← List.perm_singleton, List.perm_ext_iff_of_nodup (hnodup.filter p) (List.nodup_singleton a)]
  intro b
  rw [List.mem_filter, List.mem_singleton]
  constructor
  · rintro ⟨hb, hpb⟩
    exact hother b hb hpb
  · rintro rfl
    exact ⟨ha, hpa⟩

theorem genuine_of_mem_reported {c : Collision} (h : c ∈ reported entries) :
    Earliest c.naming entries c.first c.second := by
  obtain ⟨naming, i, j⟩ := c
  cases naming with
  | runtime => exact mem_reported_runtime_iff.1 h
  | canonical => exact (mem_reported_canonical_iff.1 h).1

/-- All reports about an entry in one way are about the earliest entry with its target. -/
theorem eq_of_isAbout {c : Collision} (hc : c ∈ reported entries) (habout : c.isAbout naming j)
    (h : Earliest naming entries i j) : c = ⟨naming, i, j⟩ := by
  obtain ⟨naming', i', j'⟩ := c
  simp only [Collision.isAbout, Bool.and_eq_true, decide_eq_true_eq] at habout
  obtain ⟨rfl, rfl⟩ := habout
  rw [h.unique (genuine_of_mem_reported hc)]

theorem reports_duplicateFindings (entries : List Entry) :
    Reports entries (reported entries) (duplicateFindings entries) where
  inOrder := by
    apply List.rel_append
    · exact forall₂_names .runtime fun p hp => hp
    · exact forall₂_names .canonical fun p hp => List.mem_of_mem_filter hp
  genuine c hc := genuine_of_mem_reported hc
  nodup := nodup_pairs entries
  runtime j hj := by
    obtain ⟨i, hi⟩ := hj.exists_earliest
    refine ⟨i, hi, ?_⟩
    apply filter_eq_singleton (nodup_pairs entries).of_map
    · exact mem_reported_runtime_iff.2 hi
    · simp [Collision.isAbout]
    · exact fun c hc habout => eq_of_isAbout hc habout hi
  canonical j hj := by
    obtain ⟨i, hi⟩ := hj.exists_earliest
    refine ⟨i, hi, ?_⟩
    -- A pair that was reported for its runtime targets is not reported for the others again.
    split
    · next hreported =>
      rw [List.filter_eq_nil_iff]
      intro c hc habout
      rw [eq_of_isAbout hc habout hi] at hc
      exact (mem_reported_canonical_iff.1 hc).2 (mem_reported_runtime_iff.1 hreported)
    · next hnew =>
      rw [mem_reported_runtime_iff] at hnew
      apply filter_eq_singleton (nodup_pairs entries).of_map
      · exact mem_reported_canonical_iff.2 ⟨hi, hnew⟩
      · simp [Collision.isAbout]
      · exact fun c hc habout => eq_of_isAbout hc habout hi

/-- Nothing is found exactly if no two entries share a runtime or a canonical target.  In any case
what is found reports each entry that repeats a target once for each way in which it does, against
the earliest entry with that target, and no pair of entries twice. -/
theorem duplicateFindings_exact (entries : List Entry) :
    (duplicateFindings entries = [] ↔
      (entries.map (·.runtime)).Nodup ∧ (entries.map (·.canonical)).Nodup) ∧
    ∃ collisions, Reports entries collisions (duplicateFindings entries) :=
  ⟨duplicateFindings_eq_nil_iff, reported entries, reports_duplicateFindings entries⟩

/-- A declaration keeps its name, so the earliest of the last table's namesakes is the first entry
in the warehouse and the second one among authors. -/
example :
    let config : ProjectConfig := { tablePrefix := some "p" }
    let named (name : String) (payload : Payload) : Registration :=
      { filePath := name ++ ".sqlx", name, payload }
    reported (ofRegistrations config
      [named "p_x" .declaration, named "x" (.table {}), named "x" .declaration,
        named "x" (.table {})]) =
      [⟨.runtime, 0, 1⟩, ⟨.runtime, 0, 3⟩, ⟨.canonical, 1, 2⟩, ⟨.canonical, 1, 3⟩] := by
  decide +kernel

end SqlWorkflow.Entry
