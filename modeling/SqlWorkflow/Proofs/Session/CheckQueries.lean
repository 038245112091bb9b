import SqlWorkflow.Proofs.Session.Entries
import SqlWorkflow.Proofs.Target.Markers

/-!
# The queries of generated assertions

The query of a generated assertion holds a marker for its table, and the columns and conditions
that the author wrote, with their markers.  A condition stands between single quotes as well, and
a quote within a marker breaks the marker there (`not_whole_conditionQuery`).

- **§1** Texts between single quotes.
- **§2** What the queries for keys and for conditions are put together of.
- **§3** The queries of all checks of a table, and the texts of all entries.
- **§4** Broken markers.
-/

namespace SqlWorkflow

/-! ## §1 Texts between single quotes -/

namespace Deferred

/-- As `Whole`, and no marker in the text holds a single quote. -/
def Quotable (s : String) : Prop :=
  ∃ ps, Apart ps ∧ (∀ d, .marker d ∈ ps → '\'' ∉ d.encode.toList) ∧ write ps = s

theorem Quotable.whole {s : String} (h : Quotable s) : Whole s := by
  obtain ⟨ps, hps, -, hwrite⟩ := h
  exact ⟨ps, hps, hwrite⟩

/-- A text that is put together of texts that hold markers only where they are written. -/
theorem Whole.join {sep : String} (hsep : Whole sep) {texts : List String}
    (h : ∀ s ∈ texts, Whole s) : Whole (Text.join sep texts) := by
  induction texts with
  | nil => exact whole_of_not_mem (by simp [Text.join])
  | cons first texts ih =>
    have hfirst := h first List.mem_cons_self
    have hrest := ih fun s hs => h s (List.mem_cons_of_mem _ hs)
    cases texts with
    | nil => exact hfirst
    | cons second texts => exact (hfirst.append hsep).append hrest

/-- A marker in the first of several texts is a marker in what they are put together to. -/
theorem Holds.join {d : Deferred} {sep first : String} (hfirst : Holds d first) (hsep : Whole sep)
    {texts : List String} (h : ∀ s ∈ texts, Whole s) :
    Holds d (Text.join sep (first :: texts)) := by
  cases texts with
  | nil => exact hfirst
  | cons second texts => exact (hfirst.append hsep).append (Whole.join hsep h)

end Deferred

namespace Entry

open Deferred

theorem quoteFree_append (s t : String) : quoteFree (s ++ t) = quoteFree s ++ quoteFree t := by
  simp [quoteFree, Text.replaceChar_append]

/-- Between quotes, literal text changes and markers without a quote do not. -/
theorem whole_quoteFree {s : String} (h : Quotable s) : Whole (quoteFree s) := by
  obtain ⟨ps, hps, hquote, rfl⟩ := h
  induction ps with
  | nil => exact whole_of_not_mem (by simp [write, quoteFree, Text.replaceChar])
  | cons p ps ih =>
    rw [write_cons, quoteFree_append]
    have hrest := ih hps.tail fun d hd => hquote d (List.mem_cons_of_mem _ hd)
    cases p with
    | literal t =>
      -- Neither the literal text nor what quotes are replaced by opens a marker.
      apply (whole_of_not_mem ?_).append hrest
      intro hmem
      rw [quoteFree, String.toList_ofList] at hmem
      rcases Text.mem_of_mem_replaceChar hmem with hnew | hold
      · exact absurd hnew (by decide)
      · exact hps t List.mem_cons_self hold
    | marker d =>
      -- A marker in which there is no quote stays as it is.
      have hsame : quoteFree d.encode = d.encode := by
        rw [quoteFree, Text.replaceChar_of_not_mem (hquote d List.mem_cons_self),
          String.ofList_toList]
      show Whole (quoteFree d.encode ++ _)
      rw [hsame]
      exact (whole_encode d).append hrest

/-! ## §2 Queries for keys and for conditions -/

theorem holds_uniqueKeyQuery (table : Target) {columns : List String}
    (h : ∀ c ∈ columns, Whole c) :
    Holds (.target (TargetRef.ofTarget table)) (uniqueKeyQuery table columns) := by
  have hcolumns : Whole (Text.join ", " columns) := Whole.join (whole_of_not_mem (by decide)) h
  unfold uniqueKeyQuery
  apply Holds.append _ (whole_of_not_mem (by decide))
  apply Holds.append _ hcolumns
  apply Holds.append _ (whole_of_not_mem (by decide))
  apply Whole.holds_append _ (holds_encode _)
  apply Whole.append _ (whole_of_not_mem (by decide))
  exact (whole_of_not_mem (by decide)).append hcolumns

theorem holds_conditionQuery (table : Target) {condition : String} (h : Quotable condition) :
    Holds (.target (TargetRef.ofTarget table)) (conditionQuery table condition) := by
  unfold conditionQuery
  apply Holds.append _ (whole_of_not_mem (by decide))
  apply Holds.append _ h.whole
  apply Holds.append _ (whole_of_not_mem (by decide))
  apply Whole.holds_append _ (holds_encode _)
  apply Whole.append _ (whole_of_not_mem (by decide))
  exact (whole_of_not_mem (by decide)).append (whole_quoteFree h)

/-! ## §3 All queries -/

/-- The markers in what is checked of an entry survive in the queries of the checks. -/
structure WholeChecks (a : TableAssertions) : Prop where
  keys : ∀ key ∈ uniqueKeys a, ∀ c ∈ key, Whole c
  conditions : ∀ condition ∈ conditions a, Quotable condition

/-- The query of every check of a table holds a marker for the table. -/
theorem holds_of_mem_checks {table : Target} {a : TableAssertions} (h : WholeChecks a)
    {name query : String} (hmem : (name, query) ∈ checks table a) :
    Holds (.target (TargetRef.ofTarget table)) query := by
  unfold checks at hmem
  rcases List.mem_append.1 hmem with hkeys | hrows
  · obtain ⟨⟨columns, i⟩, hcolumns, heq⟩ := List.mem_map.1 hkeys
    cases heq
    apply holds_uniqueKeyQuery
    exact h.keys columns (List.mem_of_getElem? (List.mem_zipIdx_iff_getElem?.1 hcolumns))
  · split at hrows
    · cases hrows
    · next hsome =>
      cases List.mem_singleton.1 hrows
      -- All conditions are checked by one query, and the part for the first names the table.
      obtain ⟨first, others, hconditions⟩ : ∃ first others, conditions a = first :: others :=
        List.exists_cons_of_ne_nil (by simpa using hsome)
      have hquotable : ∀ condition ∈ first :: others, Quotable condition := by
        rw [← hconditions]
        exact h.conditions
      rw [hconditions, List.map_cons]
      apply Holds.join (holds_conditionQuery table (hquotable first List.mem_cons_self))
        (whole_of_not_mem (by decide))
      intro s hs
      obtain ⟨condition, hcondition, rfl⟩ := List.mem_map.1 hs
      exact (holds_conditionQuery table
        (hquotable condition (List.mem_cons_of_mem _ hcondition))).whole

/-- If markers survive in what is declared, they survive in what is generated for it. -/
theorem whole_ownTexts {config : ProjectConfig} {rs : List Registration}
    (h : ∀ e ∈ declared config rs,
      (∀ t ∈ e.ownTexts, Whole t) ∧ WholeChecks e.checkedAssertions)
    {e : Entry} (he : e ∈ ofRegistrations config rs) {t : String} (ht : t ∈ e.ownTexts) :
    Whole t := by
  rcases mem_ofRegistrations he with ⟨r, hr, rfl⟩ | hgenerated
  · exact (h _ (List.mem_map_of_mem hr)).1 t ht
  · obtain ⟨position, table, name, query, htable, hcheck, rfl⟩ := hgenerated
    cases List.mem_singleton.1 ht
    exact (holds_of_mem_checks (h table (List.mem_of_getElem? htable)).2 hcheck).whole

/-! ## §4 Broken markers -/

/-- A condition stands between quotes at the beginning of its query. -/
theorem exists_conditionQuery_eq (table : Target) (condition : String) :
    ∃ rest, conditionQuery table condition = "SELECT\n  '" ++ (quoteFree condition ++ rest) := by
  refine ⟨"' AS failing_row_condition,\n  *\nFROM " ++ markerOf table ++ "\nWHERE NOT (" ++
    condition ++ ")\n", ?_⟩
  unfold conditionQuery
  simp only [String.append_assoc]

/-- If the body of a marker stands for nothing any more when quotes in it are escaped, what is left
of the marker in the query for a condition is literal text. -/
theorem not_whole_conditionQuery (table : Target) {before : String} {d : Deferred} (after : String)
    (hbefore : opening ∉ before.toList)
    (hbroken : ofBody? (Text.replaceChar '\'' ['\\', '\''] (Json.compactChars d.toJson)) = none) :
    ¬ Whole (conditionQuery table (before ++ d.encode ++ after)) := by
  intro hwhole
  have hpieces := hwhole.apart_pieces
  have hencode : (quoteFree d.encode).toList = opening ::
      (Text.replaceChar '\'' ['\\', '\''] (Json.compactChars d.toJson) ++ [closing]) := by
    simp [quoteFree, encode, Text.replaceChar_append, Text.replaceChar, opening, closing]
  -- The first marker in the query is the one between quotes.
  obtain ⟨rest, hquery⟩ := exists_conditionQuery_eq table (before ++ d.encode ++ after)
  have hlist : (conditionQuery table (before ++ d.encode ++ after)).toList =
      ("SELECT\n  '" ++ quoteFree before).toList ++ opening ::
        (Text.replaceChar '\'' ['\\', '\''] (Json.compactChars d.toJson) ++
          closing :: (quoteFree after ++ rest).toList) := by
    rw [hquery, quoteFree_append, quoteFree_append]
    simp [hencode]
  have hfirst : opening ∉ ("SELECT\n  '" ++ quoteFree before).toList := by
    rw [String.toList_append, List.mem_append, not_or]
    refine ⟨by decide, ?_⟩
    intro hmem
    rw [quoteFree, String.toList_ofList] at hmem
    rcases Text.mem_of_mem_replaceChar hmem with hnew | hold
    · exact absurd hnew (by decide)
    · exact hbefore hold
  have hbody : closing ∉ Text.replaceChar '\'' ['\\', '\''] (Json.compactChars d.toJson) := by
    intro hmem
    rcases Text.mem_of_mem_replaceChar hmem with hnew | hold
    · exact absurd hnew (by decide)
    · exact closing_not_mem_compactChars d hold
  rw [pieces, hlist, piecesOf_marker hfirst hbody, pieceOf, hbroken] at hpieces
  apply hpieces _ (List.mem_cons_of_mem _ List.mem_cons_self)
  simp

/-- The name of a table that holds a single quote. -/
theorem not_whole_conditionQuery_quote (table : Target) :
    ¬ Whole (conditionQuery table
      ("id in (select id from " ++ (Deferred.target (.named "it's")).encode ++ ")")) := by
  apply not_whole_conditionQuery table ")"
  · decide
  · decide +kernel

end Entry

end SqlWorkflow
