import SqlWorkflow.Proofs.Evaluation.IncrementalQuery

/-!
# Queries that depend on nothing

A script gives an incremental table its query by a method.  An argument that is text, or a list of
texts, has nothing to ask, so the query of new rows might be expected to be the query itself.  But
each text of a list is set as the query in its turn, so that the last one stays, while the query of
new rows holds all of them (`queryMethod_of_texts`).  So the two agree if and only if all texts
before the last are blank; an empty list leaves the query as it was and makes the query of new rows
empty (`givenTexts_query_eq_iff`).

- **§1** Texts that are joined and trimmed.
- **§2** Several queries, one after the other.
- **§3** Steps of an evaluation.
- **§4** The method that gives an action its query.
-/

namespace SqlWorkflow

/-! ## §1 Joined texts -/

/-- Joined by blanks and trimmed, texts are the last of them if and only if the others are blank. -/
theorem Text.trim_join_concat_eq_iff {sep : String} (hsep : Text.isAllBlank sep = true)
    (texts : List String) (last : String) :
    Text.trim last = Text.trim (Text.join sep (texts ++ [last])) ↔
      ∀ text ∈ texts, Text.isAllBlank text = true := by
  rw [eq_comm, Text.trim, Text.trim, String.ofList_inj, Text.toList_join_concat,
    Text.trimBoth_append_eq_iff]
  simp only [Text.isAllBlank, List.all_eq_true, List.mem_flatMap, List.mem_append] at hsep ⊢
  constructor
  · intro h text htext c hc
    exact h c ⟨text, htext, .inl hc⟩
  · rintro h c ⟨text, htext, hc | hc⟩
    · exact h text htext c hc
    · exact hsep c hc

namespace Evaluation

open Template

/-! ## §2 Several queries -/

/-- Of several queries for a table the last one stays. -/
theorem actAll_giveQuery {d : Draft} (queries : List String) (hstage : d.stage ≠ .compiled)
    (hkind : d.kind = .table) :
    ∃ stage, stage ≠ .compiled ∧ actAll (fun q => giveQuery (Text.trim q)) queries d =
      .ok ((), { d with stage, query := (queries.getLast?.map Text.trim).or d.query }) := by
  induction queries generalizing d with
  | nil => exact ⟨d.stage, hstage, rfl⟩
  | cons query rest ih =>
    let given : Draft := { d with stage := .configured, query := some (Text.trim query) }
    have hfirst : act (giveQuery (Text.trim query)) d = .ok ((), given) := by
      -- To give a table a query is to set it.
      have hset : Draft.apply (giveQuery (Text.trim query)) d =
          Draft.apply (Draft.setQuery (Text.trim query)) d := by
        rw [giveQuery, Draft.apply_get_bind, hkind]
      rw [act, hset, Draft.setQuery, Draft.apply_change, if_neg hstage]
    obtain ⟨stage, hstage', hrest⟩ := ih (d := given) (by simp [given]) hkind
    refine ⟨stage, hstage', ?_⟩
    change Except.bind (act (giveQuery (Text.trim query)) d) _ = _
    rw [hfirst]
    refine hrest.trans ?_
    -- The first query stays only if no other one follows.
    rw [List.getLast?_cons]
    cases rest.getLast? <;> rfl

/-! ## §3 Steps of an evaluation -/

section Steps

variable {α : Type} {index : Nat} {m n : Machine Progress} {ctx : ActionContext} {a : α}

theorem context_eq_ok (hctx : m.host.contexts[index]? = some ctx) :
    Host.context index m = .ok (ctx, m) := by
  change Except.ok (m.host.contexts[index]?.getD default, m) = _
  rw [hctx]
  rfl

theorem exists_described {x : Act α} {draft : Draft}
    (hctx : m.host.contexts[index]? = some ctx) (hx : x ctx.draft = .ok (a, draft)) :
    ∃ n, Host.describe index x m = .ok (a, n) ∧
      n.host.contexts[index]? = some { ctx with draft } :=
  ⟨_, describe_eq_ok hctx hx,
    Array.getElem?_setIfInBounds_self_of_lt (Array.getElem?_eq_some_iff.1 hctx).1⟩

/-- A new context leaves the others. -/
theorem exists_newContext (hctx : m.host.contexts[index]? = some ctx) (other : ActionContext) :
    ∃ copy n, Host.newContext other m = .ok (copy, n) ∧ n.host.contexts[index]? = some ctx := by
  obtain ⟨hindex, hget⟩ := Array.getElem?_eq_some_iff.1 hctx
  exact ⟨_, _, rfl, (Array.getElem?_push_lt hindex).trans (congrArg some hget)⟩

end Steps

/-! ## §4 The method -/

variable {v : Value} {texts : List String}

/-- Texts are no function that would have to be called. -/
theorem contextual_of_texts (calls : Calls Progress) (index : Nat) (h : textsOf v = .ok texts) :
    contextual calls index v = pure v := by
  cases v <;> first | rfl | cases h

/-- An incremental table that has been given texts as its query. -/
def givenTexts (d : Draft) (texts : List String) : Draft :=
  { d with
    stage := .configured
    query := (texts.getLast?.map Text.trim).or d.query
    incrementalQuery := some (Text.trim (Text.join "\n" texts)) }

/-- The method takes texts for any incremental table that is not finished. -/
theorem queryMethod_of_texts {calls : Calls Progress} {index : Nat} {rest : List Value}
    {m : Machine Progress} {ctx : ActionContext} (hctx : m.host.contexts[index]? = some ctx)
    (hstage : ctx.draft.stage ≠ .compiled) (hkind : ctx.draft.kind = .table)
    (htype : ctx.draft.tableType = .incremental) (htexts : textsOf v = .ok texts) :
    ∃ n, queryMethod calls index (v :: rest) m = .ok ((), n) ∧
      n.host.contexts[index]? = some { ctx with draft := givenTexts ctx.draft texts } := by
  have hlift : ∀ m : Machine Progress, Host.lift (textsOf v) m = .ok (texts, m) := by
    intro m
    rw [htexts]
    rfl
  obtain ⟨stage, hstage', hgive⟩ := actAll_giveQuery texts hstage hkind
  let given : Draft :=
    { ctx.draft with stage, query := (texts.getLast?.map Text.trim).or ctx.draft.query }
  have hset : act (Draft.setIncrementalQuery (Text.trim (Text.join "\n" texts))) given =
      .ok ((), givenTexts ctx.draft texts) := by
    rw [act, Draft.setIncrementalQuery, Draft.apply_change, if_neg hstage']
    rfl
  -- The query of new rows is set after the query, and a copy of the action is made in between.
  obtain ⟨m₁, hgiven, hctx₁⟩ := exists_described hctx hgive
  obtain ⟨copy, m₂, hcopy, hctx₂⟩ :=
    exists_newContext hctx₁ { draft := given, incremental := true }
  obtain ⟨n, hn, hctx₃⟩ := exists_described hctx₂ hset
  refine ⟨n, ?_, hctx₃⟩
  unfold queryMethod
  rw [bind_of_eq_ok (context_eq_ok hctx)]
  dsimp only
  rw [if_neg (by simp [hkind]), contextual_of_texts calls index htexts, pure_bind,
    bind_of_eq_ok (hlift m), bind_of_eq_ok hgiven, bind_of_eq_ok (context_eq_ok hctx₁)]
  dsimp only
  rw [if_pos ⟨hkind, htype⟩, bind_of_eq_ok hcopy, contextual_of_texts calls copy htexts, pure_bind,
    bind_of_eq_ok (hlift m₂)]
  exact hn

/-- The query and the query of new rows agree if and only if nothing is said before the last
text. -/
theorem givenTexts_query_eq_iff (d : Draft) (texts : List String) :
    (givenTexts d texts).query = (givenTexts d texts).incrementalQuery ↔
      (texts = [] → d.query = some "") ∧
        ∀ text ∈ texts.dropLast, Text.isAllBlank text = true := by
  rcases texts.eq_nil_or_concat with rfl | ⟨init, last, rfl⟩
  · change d.query = some (Text.trim (Text.join "\n" [])) ↔ _
    have hempty : Text.trim (Text.join "\n" []) = "" := rfl
    simp [hempty]
  · have hquery : (givenTexts d (init ++ [last])).query = some (Text.trim last) := by
      simp [givenTexts]
    rw [List.concat_eq_append, hquery]
    have hbreak : Text.isAllBlank "\n" = true := by decide
    simpa [givenTexts] using Text.trim_join_concat_eq_iff hbreak init last

/-- In particular those of a single text agree. -/
theorem givenTexts_query_singleton (d : Draft) (text : String) :
    (givenTexts d [text]).query = (givenTexts d [text]).incrementalQuery :=
  (givenTexts_query_eq_iff d [text]).2 ⟨by simp, by simp⟩

/-- An incremental table that is given a list of two texts. -/
example :
    let e : Evaluator := { project := { disk := { root := .folder [] }, path := "" } }
    let declared := "publish('t', \x7b'type': 'incremental'\x7d)"
    let source := "\x7b\x7b" ++ declared ++ ".query(['SELECT 1', 'SELECT 2'])\x7d\x7d"
    ((e.evaluate (.script "t.jinja" source)).toOption.map fun output =>
      output.registrations.map (·.payload)) =
      some
        [ .table
          { type := .incremental
            query := "SELECT 2"
            incrementalQuery := some "SELECT 1\nSELECT 2" } ] := by
  decide +kernel

end Evaluation

end SqlWorkflow
