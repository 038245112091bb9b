import SqlWorkflow.Proofs.Session.Expansion
import SqlWorkflow.Proofs.Session.Headers

/-!
# Inline tables

A marker that stands for an inline table is replaced by the query of that table, in which markers
are replaced in turn.  What comes out is the query that the compiled graph has for the inline table
itself, although the two are filled in separately: one on behalf of the action that refers to the
table, the other on behalf of the table.

- **§1** Entries of which one inline table is an ordinary one.
- **§2** What a graph has for an action.
- **§3** What stands for a marker (`StandsFor`), and that it is filled in (`standsFor_fill`).
- **§4** The main statement, `compile_inlines`.  The action that is written is never expanded, so
  a table that leads back to it has another query there (`preOps_inlineLoop_ne`).
-/

namespace SqlWorkflow

open Relation

/-! ## §1 One table as an ordinary one -/

/-- A change of one element is a change of its image. -/
theorem map_modify {α β : Type} {f : α → α} {f' : β → β} {g : α → β}
    (h : ∀ a, g (f a) = f' (g a)) (l : List α) (i : Nat) :
    (l.modify i f).map g = (l.map g).modify i f' := by
  apply List.ext_getElem?
  intro n
  rw [List.getElem?_map, List.getElem?_modify, List.getElem?_modify, List.getElem?_map]
  cases l[n]? with
  | none => rfl
  | some a =>
    by_cases hn : i = n
    · simp [hn, h]
    · simp [hn]

/-- What the change would leave as it is may stand behind the list. -/
theorem modify_append {α : Type} {f : α → α} {l m : List α} (h : ∀ a ∈ m, f a = a) (i : Nat) :
    (l ++ m).modify i f = l.modify i f ++ m := by
  apply List.ext_getElem?
  intro n
  by_cases hlt : n < l.length
  · rw [List.getElem?_modify, List.getElem?_append_left hlt,
      List.getElem?_append_left (by simpa using hlt), List.getElem?_modify]
  · rw [List.getElem?_modify, List.getElem?_append_right (Nat.not_lt.1 hlt),
      List.getElem?_append_right (by simpa using hlt), List.length_modify]
    cases hm : m[n - l.length]? with
    | none => rfl
    | some a =>
      have ha := h a (List.mem_of_getElem? hm)
      by_cases hn : i = n
      · simp [hn, ha]
      · simp [hn]

/-- An inline table as an ordinary one. -/
def Registration.asTable (r : Registration) : Registration :=
  match r.payload with
  | .table body =>
    if body.type = .inline then { r with payload := .table { body with type := .table } } else r
  | _ => r

namespace Entry

/-- The entry of an inline table as that of an ordinary one. -/
def asTable (e : Entry) : Entry := { e with registration := e.registration.asTable }

/-- The kind of action is the same, and so are its names. -/
theorem ofRegistration_asTable (config : ProjectConfig) (r : Registration) (parent : Option Nat) :
    ofRegistration config r.asTable parent = (ofRegistration config r parent).asTable := by
  unfold asTable Registration.asTable
  dsimp only [ofRegistration]
  split
  · next body hbody =>
    split
    · simp [canonicalTarget, hbody, Payload.kind]
    · rfl
  · rfl

theorem checkEntries_asTable (config : ProjectConfig) (e : Entry) (position : Nat) :
    checkEntries config e.asTable position = checkEntries config e position := by
  unfold asTable Registration.asTable
  split
  · next body hbody =>
    split
    · simp [checkEntries, assertions?, keysTwice, checkRegistration, hbody]
    · rfl
  · rfl

/-- An assertion is no inline table. -/
theorem asTable_of_mem_checkEntries {config : ProjectConfig} {table e : Entry} {position : Nat}
    (h : e ∈ checkEntries config table position) : e.asTable = e := by
  obtain ⟨name, query, -, rfl⟩ := mem_checkEntries h
  rfl

variable {config : ProjectConfig} {rs : List Registration} {i : Nat}

theorem declared_modify :
    declared config (rs.modify i Registration.asTable) = (declared config rs).modify i asTable :=
  map_modify (fun r => ofRegistration_asTable config r none) rs i

/-- The assertions that are generated for a table do not depend on its type. -/
theorem generated_modify (entries : List Entry) (i : Nat) :
    (entries.modify i asTable).zipIdx.flatMap (fun (e, n) => checkEntries config e n) =
      entries.zipIdx.flatMap fun (e, n) => checkEntries config e n := by
  rw [List.flatMap, List.flatMap]
  congr 1
  apply List.ext_getElem?
  intro n
  simp only [List.getElem?_map, List.getElem?_zipIdx, List.getElem?_modify]
  cases entries[n]? with
  | none => rfl
  | some e =>
    by_cases hn : i = n
    · simp [hn, checkEntries_asTable]
    · simp [hn]

/-- Changing the type of one table changes one entry and nothing in the others. -/
theorem ofRegistrations_modify :
    ofRegistrations config (rs.modify i Registration.asTable) =
      (ofRegistrations config rs).modify i asTable := by
  rw [ofRegistrations_eq, ofRegistrations_eq, declared_modify, generated_modify, modify_append]
  intro e he
  obtain ⟨p, -, hmem⟩ := List.mem_flatMap.1 he
  exact asTable_of_mem_checkEntries hmem

/-- The type of a table is no part of its names. -/
theorem map_names_modify (entries : List Entry) (i : Nat) :
    (entries.modify i asTable).map names = entries.map names := by
  have hnames : ∀ e : Entry, e.asTable.names = id e.names := fun _ => rfl
  rw [map_modify hnames, List.modify_id]

/-- An ordinary table has no query to expand. -/
theorem inlineQuery?_asTable (e : Entry) : e.asTable.inlineQuery? = none := by
  unfold inlineQuery? asTable Registration.asTable
  cases hpayload : e.registration.payload with
  | table body =>
    by_cases htype : body.type = .inline <;> simp [htype, hpayload]
  | _ => simp [hpayload]

end Entry

/-! ## §2 What a graph has for an action -/

/-- The texts of the action are those of the payload, put through `f`.  The contents of a notebook
are copied. -/
def Action.Carries (f : String → String) : Payload → Action → Prop
  | .table body, .table a =>
    a.query = f body.query ∧ a.incrementalQuery = body.incrementalQuery.map f ∧
      a.preOps = body.preOps.map f ∧ a.postOps = body.postOps.map f ∧
      a.incrementalWhere = body.incrementalWhere.map f
  | .operation queries _, .operation a => a.queries = queries.map f
  | .assertion query, .assertion a => a.query = f query
  | .declaration, .declaration _ => True
  | .notebook contents, .notebook a => a.contents = contents
  | _, _ => False

namespace CompiledGraph

/-- The action is the one of the graph with the target. -/
structure Has (g : CompiledGraph) (t : Target) (a : Action) : Prop where
  mem : a ∈ g.actions
  target_eq : a.header.target = t
  unique : ∀ a' ∈ g.actions, a'.header.target = t → a' = a

/-- The one action with the target is a table with the query. -/
def HasQuery (g : CompiledGraph) (t : Target) (query : String) : Prop :=
  ∃ a : Table, g.Has t (.table a) ∧ a.query = query

end CompiledGraph

namespace Session

variable {s : Session} {e : Entry} {i j : Nat}

theorem actions_compile_perm (s : Session) :
    s.compile.actions.Perm (actions s.config s.entries) :=
  CompiledGraph.actions_assemble_perm

theorem mem_actions_compile_iff {a : Action} :
    a ∈ s.compile.actions ↔
      ∃ (i : Nat) (e : Entry), s.entries[i]? = some e ∧ e.finish s.config s.entries i = a := by
  rw [s.actions_compile_perm.mem_iff, actions, List.mem_map]
  constructor
  · rintro ⟨⟨e, i⟩, hmem, rfl⟩
    exact ⟨i, e, List.mem_zipIdx_iff_getElem?.1 hmem, rfl⟩
  · rintro ⟨i, e, he, rfl⟩
    exact ⟨(e, i), List.mem_zipIdx_iff_getElem?.2 he, rfl⟩

/-- If no two entries share a runtime target, an entry is finished to the one action with its
target. -/
theorem has_finish (hnodup : (s.entries.map (·.runtime)).Nodup) (he : s.entries[i]? = some e) :
    s.compile.Has e.runtime (e.finish s.config s.entries i) where
  mem := mem_actions_compile_iff.2 ⟨i, e, he, rfl⟩
  target_eq := by rw [Entry.header_finish, Entry.finishedHeader_target]
  unique := by
    intro a' ha' htarget
    obtain ⟨i', e', he', rfl⟩ := mem_actions_compile_iff.1 ha'
    rw [Entry.header_finish, Entry.finishedHeader_target] at htarget
    -- The target tells the position, and the position the entry.
    have hi := Entry.position_unique hnodup he' he htarget
    subst hi
    cases he.symm.trans he'
    rfl

/-- Where the texts of the action at a position are filled in. -/
abbrev expansion (s : Session) (i : Nat) : Expansion := ⟨s.config, s.entries, i⟩

theorem carries_finish (s : Session) (e : Entry) (i : Nat) :
    (e.finish s.config s.entries i).Carries ((s.expansion i).text e) e.registration.payload := by
  unfold Entry.finish
  cases e.registration.payload <;> simp [Action.Carries]

/-- The query of an inline table as the graph has it. -/
theorem hasQuery_of_inlineQuery? (hnodup : (s.entries.map (·.runtime)).Nodup)
    (he : s.entries[i]? = some e) {query : String} (hquery : e.inlineQuery? = some query) :
    s.compile.HasQuery e.runtime ((s.expansion i).text e query) := by
  have hhas := has_finish hnodup he
  unfold Entry.inlineQuery? at hquery
  split at hquery
  · next body hbody =>
    split at hquery
    · cases hquery
      unfold Entry.finish at hhas
      rw [hbody] at hhas
      exact ⟨_, hhas, rfl⟩
    · cases hquery
  · cases hquery

/-! ## §3 What stands for a marker -/

/-- The session with one inline table as an ordinary one. -/
def withTable (s : Session) (i : Nat) : Session :=
  { s with registrations := s.registrations.modify i Registration.asTable }

theorem entries_withTable (s : Session) (i : Nat) :
    (s.withTable i).entries = s.entries.modify i Entry.asTable :=
  Entry.ofRegistrations_modify

/-- What stands for a marker in a text of the action at position `i`. -/
inductive StandsFor (s : Session) (i : Nat) : Deferred → String → Prop
  | selfTarget {e : Entry} (he : s.entries[i]? = some e) :
      StandsFor s i .selfTarget e.runtime.quoted
  | selfSchema {e : Entry} (he : s.entries[i]? = some e) :
      StandsFor s i .selfSchema e.runtime.schema
  | selfDatabase {e : Entry} (he : s.entries[i]? = some e) :
      StandsFor s i .selfDatabase (e.runtime.database.getD "")
  /-- An inline table other than the action: its query, as the graph has it, unless the query leads
  back to the action, and in any case as the graph would have it if the action were an ordinary
  table. -/
  | inlined {r : TargetRef} {j : Nat} {e : Entry} {query : String}
      (hr : Entry.resolve s.entries r = .found j) (he : s.entries[j]? = some e)
      (hinline : e.inlineQuery?.isSome) (hother : j ≠ i)
      (hquery : ¬ TransGen (Entry.Inlines s.entries) j i → s.compile.HasQuery e.runtime query)
      (hnamed : (s.withTable i).compile.HasQuery e.runtime query) :
      StandsFor s i (.target r) ("(" ++ query ++ ")")
  /-- Any other action, and the action itself. -/
  | named {r : TargetRef} {j : Nat} {e : Entry} (hr : Entry.resolve s.entries r = .found j)
      (he : s.entries[j]? = some e) (hname : e.inlineQuery? = none ∨ j = i) :
      StandsFor s i (.target r) e.runtime.quoted
  /-- A reference that resolves to no single action. -/
  | unresolved {r : TargetRef} (hr : ∀ j, Entry.resolve s.entries r ≠ .found j) :
      StandsFor s i (.target r) ((s.expansion i).fallback r).quoted

/-- A query is expanded on behalf of another action as on behalf of its own table, if it does not
lead back to that action. -/
theorem agree_of_not_transGen {query : String} (he : s.entries[j]? = some e)
    (hquery : e.inlineQuery? = some query) (hback : ¬ TransGen (Entry.Inlines s.entries) j i) :
    Expansion.Agree (s.expansion i) (s.expansion j) [j] []
      (Deferred.pieces query) := by
  intro r l hr hl k hk
  have hj : s.entries[j]?.bind Entry.inlineQuery? = some query := by
    rw [he]
    exact hquery
  have hjl := Entry.mem_references hj (Deferred.mem_targets_iff.2 hr) hl
  ext ⟨e', query'⟩
  simp only [Expansion.inline?_eq_some_iff, List.mem_singleton, List.not_mem_nil,
    not_false_eq_true, and_true]
  refine and_congr_right fun he' => and_congr_right fun hquery' => ?_
  -- An inline table that the query leads to is not the action that is written.
  have hki : k ≠ i := by
    rintro rfl
    apply hback
    apply Entry.transGen_inlines (.head' hjl hk)
    simp [he', hquery']
  simp [hki]

/-- If the action that is written were an ordinary table, it would not be expanded either. -/
theorem agree_withTable (s : Session) (i j : Nat) (ps : List Deferred.Piece) :
    Expansion.Agree (s.expansion i) ((s.withTable i).expansion j) [j] [] ps := by
  intro r l _ _ k _
  ext ⟨e, query⟩
  simp only [Expansion.inline?_eq_some_iff, List.mem_singleton, List.not_mem_nil,
    not_false_eq_true, and_true, entries_withTable, List.getElem?_modify]
  by_cases hki : i = k
  · subst hki
    cases hentry : s.entries[i]? with
    | none => simp
    | some e' =>
      -- An ordinary table has no query to expand.
      have hnone := e'.inlineQuery?_asTable
      simp only [Option.map_eq_map, Option.map_some, if_true, Option.some.injEq, ne_eq,
        not_true_eq_false, false_and, and_false, false_iff, not_and]
      rintro rfl hquery
      rw [hnone] at hquery
      cases hquery
  · simp [hki, Ne.symm hki]

theorem getElem?_of_resolve (hnodup : (s.entries.map (·.runtime)).Nodup) {r : TargetRef}
    (hr : Entry.resolve s.entries r = .found j) : ∃ e, s.entries[j]? = some e := by
  obtain ⟨e, hcandidates⟩ := Entry.candidates_of_resolve_eq_found hnodup hr
  exact ⟨e, Entry.getElem?_of_mem_candidates (hcandidates ▸ List.mem_singleton_self _)⟩

/-- What is put in the place of an inline table is the query that graphs have for it. -/
theorem standsFor_inline (hnodup : (s.entries.map (·.runtime)).Nodup) {r : TargetRef}
    (hr : Entry.resolve s.entries r = .found j) {query : String}
    (hinline : (s.expansion i).inline? [] j = some (e, query)) :
    s.StandsFor i (.target r) ("(" ++
      (s.expansion i).pieces [j] e (Deferred.pieces query) ++ ")") := by
  obtain ⟨he, hquery, hother, -⟩ := Expansion.inline?_eq_some_iff.1 hinline
  have hnames : (s.withTable i).entries.map Entry.names = s.entries.map Entry.names := by
    rw [entries_withTable, Entry.map_names_modify]
  apply StandsFor.inlined hr he _ hother
  · -- The table is finished with itself as the root, where `j` need not be on the stack.
    intro hback
    have halike : Expansion.Alike (s.expansion i) (s.expansion j) :=
      .of_names rfl rfl hnodup
    rw [Expansion.pieces_congr halike (agree_of_not_transGen he hquery hback)]
    exact hasQuery_of_inlineQuery? hnodup he hquery
  · -- With the action as an ordinary table nothing has to be said about where the query leads.
    have halike : Expansion.Alike (s.expansion i)
        ((s.withTable i).expansion j) := .of_names rfl hnames.symm hnodup
    rw [Expansion.pieces_congr halike (s.agree_withTable i j _)]
    apply hasQuery_of_inlineQuery? (s := s.withTable i) _ _ hquery
    · rw [Entry.map_runtime_eq_of_names hnames]
      exact hnodup
    · rw [entries_withTable, List.getElem?_modify, he]
      simp [Ne.symm hother]
  · simp [hquery]

/-- Every marker of a text of an action is filled in with what stands for it. -/
theorem standsFor_fill (hnodup : (s.entries.map (·.runtime)).Nodup) (he : s.entries[i]? = some e)
    (d : Deferred) : s.StandsFor i d ((s.expansion i).fill [] e d) := by
  cases d with
  | selfTarget => exact .selfTarget he
  | selfSchema => exact .selfSchema he
  | selfDatabase => exact .selfDatabase he
  | target r =>
    simp only [Expansion.fill]
    cases hr : Entry.resolve s.entries r with
    | missing => exact .unresolved (by simp [hr])
    | ambiguous positions => exact .unresolved (by simp [hr])
    | found j =>
      obtain ⟨t, ht⟩ := getElem?_of_resolve hnodup hr
      cases hinline : (s.expansion i).inline? [] j with
      | some found =>
        simp only [Expansion.standIn, hinline]
        exact standsFor_inline hnodup hr hinline
      | none =>
        simp only [Expansion.standIn, hinline, Expansion.nameOf, ht]
        apply StandsFor.named hr ht
        -- An inline table that is not expanded is the action that is written.
        cases hquery : t.inlineQuery? with
        | none => exact .inl rfl
        | some query =>
          refine .inr (by_contra fun hother => ?_)
          have hsome : (s.expansion i).inline? [] j = some (t, query) :=
            Expansion.inline?_eq_some_iff.2 ⟨ht, hquery, hother, List.not_mem_nil⟩
          rw [hinline] at hsome
          cases hsome

/-- Only a text of an inline table has a marker whose inline table leads back to the action, and it
is not the table's query. -/
theorem not_mem_query_of_transGen (hacyclic : ∀ k, ¬ TransGen (Entry.Inlines s.entries) k k)
    (he : s.entries[i]? = some e) {r : TargetRef} (hr : Entry.resolve s.entries r = .found j)
    (hback : TransGen (Entry.Inlines s.entries) j i) :
    ∃ query, e.inlineQuery? = some query ∧ r ∉ Deferred.targets query := by
  -- Both ends of a chain of references between inline tables are inline tables.
  have hi : (s.entries[i]?.bind Entry.inlineQuery?).isSome := by
    obtain ⟨k, -, hki⟩ := TransGen.tail'_iff.1 hback
    exact hki.2
  have hj : (s.entries[j]?.bind Entry.inlineQuery?).isSome := by
    obtain ⟨k, hjk, -⟩ := TransGen.head'_iff.1 hback
    exact Entry.isSome_of_mem_references hjk.1
  obtain ⟨query, hquery⟩ := Option.isSome_iff_exists.1 hi
  refine ⟨query, by simpa [he] using hquery, fun hmem => ?_⟩
  -- Otherwise the table would refer to itself in a circle.
  exact hacyclic i (.head ⟨Entry.mem_references hquery hmem hr, hj⟩ hback)

/-! ## §4 Texts of a graph -/

/-- If the entries of a session have different runtime targets and its inline tables do not refer
to one another in a circle, every text of every action is the registered one with each marker
replaced by what stands for it.  An inline table that leads back to the action does so only from
other texts than the action's own query. -/
theorem compile_inlines (s : Session) (hnodup : (s.entries.map (·.runtime)).Nodup)
    (hacyclic : ∀ k, ¬ TransGen (Entry.Inlines s.entries) k k) {i : Nat} {e : Entry}
    (he : s.entries[i]? = some e) :
    ∃ a fill, s.compile.Has e.runtime a ∧
      a.Carries (Deferred.substitute fill) e.registration.payload ∧
      (∀ d, s.StandsFor i d (fill d)) ∧
      ∀ r j, Entry.resolve s.entries r = .found j → TransGen (Entry.Inlines s.entries) j i →
        ∃ query, e.inlineQuery? = some query ∧ r ∉ Deferred.targets query := by
  refine ⟨e.finish s.config s.entries i, (s.expansion i).fill [] e,
    has_finish hnodup he, ?_, standsFor_fill hnodup he, ?_⟩
  · rw [← Expansion.text_eq_substitute]
    exact carries_finish s e i
  · intro r j hr hback
    exact not_mem_query_of_transGen hacyclic he hr hback

/-- A table that reads from an inline table, which reads from another one. -/
def inlineChain : Session where
  config := {}
  coreVersion := "3.0.0"
  registrations :=
    [ { filePath := "source.sqlx", name := "source"
        payload := .table { query := "select 1 as x" } },
      { filePath := "inner.sqlx", name := "inner"
        payload := .table
          { type := .inline
            query := "select x from " ++ (Deferred.target (.named "source")).encode ++ " where " ++
              Deferred.selfSchema.encode ++ " = 1" } },
      { filePath := "outer.sqlx", name := "outer"
        payload := .table
          { type := .inline
            query := "select x from " ++ (Deferred.target (.named "inner")).encode } },
      { filePath := "report.sqlx", name := "report"
        payload := .table
          { query := "select * from " ++ (Deferred.target (.named "outer")).encode } } ]

theorem compile_inlines_inlineChain :
    (inlineChain.entries.map (·.runtime)).Nodup ∧
      (∀ k, ¬ TransGen (Entry.Inlines inlineChain.entries) k k) ∧
      ∃ e, inlineChain.entries[3]? = some e ∧ ∃ a fill, inlineChain.compile.Has e.runtime a ∧
        a.Carries (Deferred.substitute fill) e.registration.payload ∧
        ∀ d, inlineChain.StandsFor 3 d (fill d) := by
  have hnodup : (inlineChain.entries.map (·.runtime)).Nodup := by decide +kernel
  have hacyclic := Entry.not_transGen_inlines inlineChain.entries (by decide +kernel)
  obtain ⟨e, he⟩ : ∃ e, inlineChain.entries[3]? = some e := ⟨_, rfl⟩
  obtain ⟨a, fill, hhas, hcarries, hfill, -⟩ := compile_inlines inlineChain hnodup hacyclic he
  exact ⟨hnodup, hacyclic, e, he, a, fill, hhas, hcarries, hfill⟩

/-- An inline table whose preparation reads from another one, which reads from the first. -/
def inlineLoop : Session where
  config := {}
  coreVersion := "3.0.0"
  registrations :=
    [ { filePath := "rows.sqlx", name := "rows"
        payload := .table
          { type := .inline, query := "select 1"
            preOps := ["insert into log " ++ (Deferred.target (.named "users")).encode] } },
      { filePath := "users.sqlx", name := "users"
        payload := .table
          { type := .inline
            query := "select * from " ++ (Deferred.target (.named "rows")).encode } } ]

/-- A text that ends with a reference is filled in up to it and with what stands for it. -/
theorem pieces_trailing {x : Expansion} {stack : List Nat} {owner : Entry} {before text : String}
    {r : TargetRef}
    (h : Deferred.pieces text = [.literal before, .marker (.target r), .literal ""]) :
    x.pieces stack owner (Deferred.pieces text) =
      before ++ x.standIn stack r (Entry.resolve x.entries r) := by
  rw [h, Expansion.pieces, Expansion.pieces_target, Expansion.pieces, Expansion.pieces]
  simp

theorem pieces_users_inlineLoop :
    Deferred.pieces ("select * from " ++ (Deferred.target (.named "rows")).encode) =
      [.literal "select * from ", .marker (.target (.named "rows")), .literal ""] := by
  decide +kernel

theorem resolve_rows_inlineLoop : Entry.resolve inlineLoop.entries (.named "rows") = .found 0 := by
  decide +kernel

theorem resolve_users_inlineLoop :
    Entry.resolve inlineLoop.entries (.named "users") = .found 1 := by
  decide +kernel

/-- On behalf of the first table the second one is expanded, and the first one named in it. -/
theorem text_preOp_inlineLoop (owner : Entry) :
    (inlineLoop.expansion 0).text owner
        ("insert into log " ++ (Deferred.target (.named "users")).encode) =
      "insert into log (select * from `dataform.rows`)" := by
  have hpieces : Deferred.pieces
      ("insert into log " ++ (Deferred.target (.named "users")).encode) =
        [.literal "insert into log ", .marker (.target (.named "users")), .literal ""] := by
    decide +kernel
  obtain ⟨users, hinline⟩ : ∃ users, (inlineLoop.expansion 0).inline? [] 1 =
      some (users, "select * from " ++ (Deferred.target (.named "rows")).encode) := ⟨_, rfl⟩
  have hnamed : (inlineLoop.expansion 0).inline? [1] 0 = none := rfl
  rw [Expansion.text, pieces_trailing hpieces, resolve_users_inlineLoop]
  simp only [Expansion.standIn, hinline]
  rw [pieces_trailing pieces_users_inlineLoop, resolve_rows_inlineLoop]
  simp only [Expansion.standIn, hnamed]
  decide +kernel

/-- On behalf of the second table the first one is expanded. -/
theorem text_query_inlineLoop (owner : Entry) :
    (inlineLoop.expansion 1).text owner
        ("select * from " ++ (Deferred.target (.named "rows")).encode) =
      "select * from (select 1)" := by
  have hpieces : Deferred.pieces "select 1" = [.literal "select 1"] := by decide +kernel
  obtain ⟨rows, hinline⟩ : ∃ rows, (inlineLoop.expansion 1).inline? [] 0 =
      some (rows, "select 1") := ⟨_, rfl⟩
  rw [Expansion.text, pieces_trailing pieces_users_inlineLoop, resolve_rows_inlineLoop]
  simp only [Expansion.standIn, hinline, hpieces, Expansion.pieces]
  decide +kernel

/-- The queries do not refer to one another in a circle, but the action that is written is named
inside the table that it reads from. -/
theorem preOps_inlineLoop_ne :
    (inlineLoop.entries.map (·.runtime)).Nodup ∧
      (∀ k, ¬ TransGen (Entry.Inlines inlineLoop.entries) k k) ∧
      Entry.resolve inlineLoop.entries (.named "users") = .found 1 ∧
      ∃ rows query, inlineLoop.compile.Has ⟨none, "dataform", "rows"⟩ (.table rows) ∧
        inlineLoop.compile.HasQuery ⟨none, "dataform", "users"⟩ query ∧
        rows.preOps ≠ ["insert into log " ++ ("(" ++ query ++ ")")] := by
  have hnodup : (inlineLoop.entries.map (·.runtime)).Nodup := by decide +kernel
  have hacyclic := Entry.not_transGen_inlines inlineLoop.entries (by decide +kernel)
  have hrows := has_finish (s := inlineLoop) (i := 0) hnodup rfl
  have husers := hasQuery_of_inlineQuery? (s := inlineLoop) (i := 1) hnodup rfl rfl
  refine ⟨hnodup, hacyclic, resolve_users_inlineLoop, _, _, hrows, husers, ?_⟩
  show [(inlineLoop.expansion 0).text _ _] ≠ _
  rw [text_preOp_inlineLoop, text_query_inlineLoop]
  decide

end Session

end SqlWorkflow
