import SqlWorkflow.Proofs.Session.Entries
import Mathlib.Data.List.Forall2

/-!
# Entries in another order

Two lists of entries may hold the same entries in different orders.  Positions then differ, and so
does what is expressed by them: parents, resolutions, the stack of an expansion.  Everything that
is expressed by targets and texts is the same.

- **§1** Lists that agree up to order and up to what a key forgets.
- **§2** An entry without positions (`Entry.View`), rearranged lists of entries, and positions of
  one entry in both of them (`Placed`).
- **§3** References resolve to positions of the same entries (`resolve_matches`).
- **§4** Markers are filled in with the same texts (`pieces_eq`).
-/

namespace SqlWorkflow

/-! ## §1 Lists with the same keys -/

section Keys

variable {α α' κ β : Type} {key : α → κ} {key' : α' → κ} {l : List α} {l' : List α'}

/-- Lists with the same keys, in any order, can be matched element by element. -/
theorem exists_matching (h : (l.map key).Perm (l'.map key')) :
    ∃ m, m.Perm l' ∧ List.Forall₂ (fun a b => key a = key' b) l m := by
  have hkeys : List.Forall₂ (fun k b => k = key' b) (l'.map key') l' :=
    List.forall₂_map_left_iff.2 (List.forall₂_same.2 fun _ _ => rfl)
  -- Going along the permutation first and along the keys then is the same as the other way around.
  obtain ⟨m, hm, hperm⟩ := List.perm_comp_forall₂ h hkeys
  exact ⟨m, hperm, List.forall₂_map_left_iff.1 hm⟩

/-- What depends on an element only through its key comes out the same up to order. -/
theorem perm_flatMap_of_key {f : α → List β} {f' : α' → List β}
    (h : (l.map key).Perm (l'.map key'))
    (hf : ∀ a ∈ l, ∀ b ∈ l', key a = key' b → f a = f' b) :
    (l.flatMap f).Perm (l'.flatMap f') := by
  obtain ⟨m, hperm, hmatch⟩ := exists_matching h
  -- Element by element against the matching, which is then put in order.
  have hsame : l.flatMap f = m.flatMap f' := by
    replace hf : ∀ a ∈ l, ∀ b ∈ m, key a = key' b → f a = f' b := fun a ha b hb =>
      hf a ha b (hperm.mem_iff.1 hb)
    clear h hperm
    induction hmatch with
    | nil => rfl
    | cons hab _ ih =>
      rw [List.flatMap_cons, List.flatMap_cons,
        hf _ List.mem_cons_self _ List.mem_cons_self hab,
        ih fun a ha b hb => hf a (List.mem_cons_of_mem _ ha) b (List.mem_cons_of_mem _ hb)]
  rw [hsame]
  exact hperm.flatMap_right f'

theorem perm_map_of_key {f : α → β} {f' : α' → β} (h : (l.map key).Perm (l'.map key'))
    (hf : ∀ a ∈ l, ∀ b ∈ l', key a = key' b → f a = f' b) : (l.map f).Perm (l'.map f') := by
  rw [← List.flatMap_singleton' (l.map f), ← List.flatMap_singleton' (l'.map f'),
    List.flatMap_map, List.flatMap_map]
  exact perm_flatMap_of_key h fun a ha b hb hab => by rw [hf a ha b hb hab]

theorem map_filter_eq_flatMap (p : α → Bool) (f : α → β) (l : List α) :
    (l.filter p).map f = l.flatMap fun a => if p a then [f a] else [] := by
  induction l with
  | nil => rfl
  | cons a l ih =>
    rw [List.filter_cons, List.flatMap_cons, ← ih]
    split <;> rfl

theorem perm_filter_map_of_key {p : α → Bool} {p' : α' → Bool} {f : α → β} {f' : α' → β}
    (h : (l.map key).Perm (l'.map key'))
    (hp : ∀ a ∈ l, ∀ b ∈ l', key a = key' b → p a = p' b)
    (hf : ∀ a ∈ l, ∀ b ∈ l', key a = key' b → f a = f' b) :
    ((l.filter p).map f).Perm ((l'.filter p').map f') := by
  rw [map_filter_eq_flatMap, map_filter_eq_flatMap]
  exact perm_flatMap_of_key h fun a ha b hb hab => by rw [hp a ha b hb hab, hf a ha b hb hab]

end Keys

namespace Entry

/-! ## §2 Entries without positions -/

/-- An entry without positions. -/
structure View where
  registration : Registration
  canonical : Target
  runtime : Target
  /-- The runtime target of the table that the entry checks. -/
  parent : Option Target

/-- The runtime target of the entry at a position. -/
def targetAt (entries : List Entry) (position : Nat) : Option Target :=
  entries[position]?.map (·.runtime)

/-- What an entry is, apart from positions. -/
def view (entries : List Entry) (e : Entry) : View where
  registration := e.registration
  canonical := e.canonical
  runtime := e.runtime
  parent := e.parent.bind (targetAt entries)

/-- Two lists hold the same entries, and no two entries of either share a runtime target. -/
structure Rearranged (es es' : List Entry) : Prop where
  perm : (es.map (view es)).Perm (es'.map (view es'))
  nodup : (es.map (·.runtime)).Nodup
  nodup' : (es'.map (·.runtime)).Nodup

/-- Two positions of one entry. -/
def Placed (es es' : List Entry) (i i' : Nat) : Prop :=
  ∃ e e', es[i]? = some e ∧ es'[i']? = some e' ∧ view es e = view es' e'

variable {es es' : List Entry} {e e' : Entry} {i i' j j' : Nat}

theorem registration_eq_of_view_eq (h : view es e = view es' e') :
    e.registration = e'.registration :=
  congrArg View.registration h

theorem canonical_eq_of_view_eq (h : view es e = view es' e') : e.canonical = e'.canonical :=
  congrArg View.canonical h

theorem runtime_eq_of_view_eq (h : view es e = view es' e') : e.runtime = e'.runtime :=
  congrArg View.runtime h

theorem parent_eq_of_view_eq (h : view es e = view es' e') :
    e.parent.bind (targetAt es) = e'.parent.bind (targetAt es') :=
  congrArg View.parent h

theorem Rearranged.symm (h : Rearranged es es') : Rearranged es' es :=
  ⟨h.perm.symm, h.nodup', h.nodup⟩

theorem Rearranged.exists_view_eq (h : Rearranged es es') (he : e ∈ es) :
    ∃ e' ∈ es', view es e = view es' e' := by
  obtain ⟨e', he', heq⟩ := List.mem_map.1 (h.perm.mem_iff.1 (List.mem_map_of_mem he))
  exact ⟨e', he', heq.symm⟩

/-- Two positions with one runtime target are the same. -/
theorem position_unique (hnodup : (es.map (·.runtime)).Nodup) (hi : es[i]? = some e)
    (hj : es[j]? = some e') (heq : e.runtime = e'.runtime) : i = j := by
  have hlt : i < (es.map (·.runtime)).length := by
    simpa using (List.getElem?_eq_some_iff.1 hi).1
  -- Two places of a list without repetitions that hold the same are one place.
  refine (List.getElem?_inj hlt hnodup).1 ?_
  rw [List.getElem?_map, List.getElem?_map, hi, hj, Option.map_some, Option.map_some, heq]

/-- Positions of one entry are equal in one list if they are in the other. -/
theorem Rearranged.position_eq_iff (h : Rearranged es es') (hi : Placed es es' i i')
    (hj : Placed es es' j j') : i = j ↔ i' = j' := by
  obtain ⟨e, e', he, he', hview⟩ := hi
  obtain ⟨d, d', hd, hd', hview'⟩ := hj
  have hruntime := runtime_eq_of_view_eq hview
  have hruntime' := runtime_eq_of_view_eq hview'
  constructor
  · rintro rfl
    cases he.symm.trans hd
    exact position_unique h.nodup' he' hd' (hruntime.symm.trans hruntime')
  · rintro rfl
    cases he'.symm.trans hd'
    exact position_unique h.nodup he hd (hruntime.trans hruntime'.symm)

theorem Rearranged.mem_iff (h : Rearranged es es') (hi : Placed es es' i i') {l l' : List Nat}
    (hl : List.Forall₂ (Placed es es') l l') : i ∈ l ↔ i' ∈ l' := by
  induction hl with
  | nil => simp
  | cons hj _ ih => rw [List.mem_cons, List.mem_cons, h.position_eq_iff hi hj, ih]

theorem Placed.targetAt_eq (h : Placed es es' i i') : targetAt es i = targetAt es' i' := by
  obtain ⟨e, e', he, he', hview⟩ := h
  rw [targetAt, targetAt, he, he', Option.map_some, Option.map_some, runtime_eq_of_view_eq hview]

/-! ## §3 Resolution -/

/-- Two resolutions to positions of the same entries. -/
inductive Matches (es es' : List Entry) : Resolution → Resolution → Prop where
  | found {a a' : Nat} (h : Placed es es' a a') : Matches es es' (.found a) (.found a')
  | missing : Matches es es' .missing .missing
  | ambiguous {l l' : List Nat} (h : List.Forall₂ (Placed es es') l l') :
      Matches es es' (.ambiguous l) (.ambiguous l')

/-- The resolution to an entry of several, given by their positions. -/
def Resolution.ofPositions : List Nat → Resolution
  | [] => .missing
  | [i] => .found i
  | several => .ambiguous several

/-- The candidates of a reference, one for each runtime target, in the order of the targets. -/
def ranked (entries : List Entry) (r : TargetRef) : List (Nat × Entry) :=
  (distinct (candidates entries r)).mergeSort fun a b => a.2.runtime.le b.2.runtime

theorem resolve_eq_ofPositions (entries : List Entry) (r : TargetRef) :
    resolve entries r = .ofPositions ((ranked entries r).map (·.1)) := by
  unfold resolve ranked
  split
  · next hnone => rw [hnone, List.mergeSort_nil]; rfl
  · next i e hone => rw [hone, List.mergeSort_singleton]; rfl
  · next hnotNil hnotOne =>
    -- Several candidates are several positions in whatever order they are put.
    have hlength : (((distinct (candidates entries r)).mergeSort
        fun a b => a.2.runtime.le b.2.runtime).map (·.1)).length =
          (distinct (candidates entries r)).length := by
      rw [List.length_map, List.length_mergeSort]
    revert hlength
    generalize List.map _ _ = positions
    rcases hd : distinct (candidates entries r) with _ | ⟨c, _ | ⟨d, cs⟩⟩
    · exact (hnotNil hd).elim
    · exact (hnotOne c.1 c.2 hd).elim
    · rcases positions with _ | ⟨p, _ | ⟨q, ps⟩⟩ <;> intro hlength
      · cases hlength
      · cases hlength
      · rfl

theorem matches_ofPositions {l l' : List Nat} (h : List.Forall₂ (Placed es es') l l') :
    Matches es es' (.ofPositions l) (.ofPositions l') := by
  rcases h with _ | ⟨hfirst, _ | ⟨hsecond, hrest⟩⟩
  · exact .missing
  · exact .found hfirst
  · exact .ambiguous (.cons hfirst (.cons hsecond hrest))

theorem map_view_filter (p : View → Bool) :
    (es.filter fun e => p (view es e)).map (view es) = (es.map (view es)).filter p :=
  List.filter_map.symm

/-- A reference fits the same entries in both lists. -/
theorem Rearranged.fitting_perm (h : Rearranged es es') (r : TargetRef) :
    ((fitting es r).map (view es)).Perm ((fitting es' r).map (view es')) := by
  -- Whether a reference fits an entry can be told from its view.
  have hfilter : ∀ p : View → Bool, ((es.filter fun e => p (view es e)).map (view es)).Perm
      ((es'.filter fun e => p (view es' e)).map (view es')) := by
    intro p
    rw [map_view_filter, map_view_filter]
    exact h.perm.filter p
  have hcanonical := hfilter fun v => decide (r.Fits v.canonical)
  have hruntime := hfilter fun v => decide (r.Fits v.runtime)
  -- Runtime targets count in both lists or in neither.
  have hempty : (es.filter fun e => decide (r.Fits e.canonical)).isEmpty =
      (es'.filter fun e => decide (r.Fits e.canonical)).isEmpty := by
    have hmapped := hcanonical.isEmpty_eq
    rw [List.isEmpty_map, List.isEmpty_map] at hmapped
    exact hmapped
  unfold fitting
  rw [hempty]
  split
  · exact hruntime
  · exact hcanonical

theorem map_view_ranked (hnodup : (es.map (·.runtime)).Nodup) (r : TargetRef) :
    (ranked es r).map (fun c => view es c.2) =
      ((fitting es r).map (view es)).mergeSort fun v w => v.runtime.le w.runtime := by
  unfold ranked
  rw [distinct_eq_self (candidates_runtime_nodup hnodup r), ← map_snd_candidates, List.map_map]
  exact List.map_mergeSort fun _ _ _ _ => rfl

/-- The ranked candidates of a reference are the same entries, in the same order. -/
theorem Rearranged.map_view_ranked_eq (h : Rearranged es es') (r : TargetRef) :
    (ranked es r).map (fun c => view es c.2) = (ranked es' r).map (fun c => view es' c.2) := by
  rw [map_view_ranked h.nodup, map_view_ranked h.nodup']
  refine mergeSort_eq_of_perm (fun _ _ _ => Target.le_trans) (fun _ _ => Target.le_total _ _)
    (fun v hv w hw hvw hwv => ?_) (h.fitting_perm r)
  -- Views of one list with one runtime target are views of one entry.
  obtain ⟨e, he, rfl⟩ := List.mem_map.1 hv
  obtain ⟨d, hd, rfl⟩ := List.mem_map.1 hw
  have hmem := fun {a} => (fitting_sublist es r).mem (a := a)
  rw [List.inj_on_of_nodup_map h.nodup (hmem he) (hmem hd) (Target.le_antisymm hvw hwv)]

theorem getElem?_of_mem_ranked (hnodup : (es.map (·.runtime)).Nodup) {r : TargetRef}
    (h : (i, e) ∈ ranked es r) : es[i]? = some e := by
  unfold ranked at h
  rw [distinct_eq_self (candidates_runtime_nodup hnodup r), List.mem_mergeSort] at h
  exact getElem?_of_mem_candidates h

/-- A reference resolves to positions of the same entries. -/
theorem Rearranged.resolve_matches (h : Rearranged es es') (r : TargetRef) :
    Matches es es' (resolve es r) (resolve es' r) := by
  rw [resolve_eq_ofPositions, resolve_eq_ofPositions]
  refine matches_ofPositions ?_
  -- The ranking is by runtime target, so it is the same list of views; positions come back from it.
  have hsame : List.Forall₂ (fun c c' => view es c.2 = view es' c'.2) (ranked es r)
      (ranked es' r) := by
    rw [← List.forall₂_map_left_iff (f := fun c : Nat × Entry => view es c.2)
        (R := fun v (c' : Nat × Entry) => v = view es' c'.2),
      ← List.forall₂_map_right_iff (f := fun c : Nat × Entry => view es' c.2) (R := Eq),
      List.forall₂_eq_eq_eq]
    exact h.map_view_ranked_eq r
  have hstands : ∀ {i e}, (i, e) ∈ ranked es r → es[i]? = some e := getElem?_of_mem_ranked h.nodup
  have hstands' : ∀ {i e}, (i, e) ∈ ranked es' r → es'[i]? = some e :=
    getElem?_of_mem_ranked h.nodup'
  rw [List.forall₂_map_left_iff, List.forall₂_map_right_iff]
  generalize ranked es r = l at hsame hstands
  generalize ranked es' r = l' at hsame hstands'
  induction hsame with
  | nil => exact .nil
  | cons hview _ ih =>
    refine .cons ⟨_, _, hstands List.mem_cons_self, hstands' List.mem_cons_self, hview⟩ ?_
    exact ih (fun hmem => hstands (List.mem_cons_of_mem _ hmem))
      fun hmem => hstands' (List.mem_cons_of_mem _ hmem)

end Entry

/-! ## §4 Markers -/

namespace Expansion

open Entry (Placed Matches view)

/-- What stands for a reference with the given resolution. -/
def standIn (x : Expansion) (stack : List Nat) (r : TargetRef) : Entry.Resolution → String
  | .found i =>
    match x.inline? stack i with
    | some (e, query) => "(" ++ x.pieces (i :: stack) e (Deferred.pieces query) ++ ")"
    | none => x.nameOf r (.found i)
  | other => x.nameOf r other

theorem pieces_target (x : Expansion) (stack : List Nat) (owner : Entry) (r : TargetRef)
    (rest : List Deferred.Piece) :
    x.pieces stack owner (.marker (.target r) :: rest) =
      x.standIn stack r (Entry.resolve x.entries r) ++ x.pieces stack owner rest := by
  rw [pieces]
  simp only [standIn]
  cases Entry.resolve x.entries r with
  | found i =>
    dsimp only
    split
    · next hi => rw [hi]
    · next hi => rw [hi]
  | missing => rfl
  | ambiguous positions => rfl

/-- Markers are filled in at one place of two arrangements of the entries. -/
structure Rearranged (x x' : Expansion) : Prop where
  config : x.config = x'.config
  entries : Entry.Rearranged x.entries x'.entries
  root : Placed x.entries x'.entries x.root x'.root

variable {x x' : Expansion} {stack stack' : List Nat} {i i' : Nat}

theorem Rearranged.fallback_eq (h : Rearranged x x') (r : TargetRef) :
    x.fallback r = x'.fallback r := by
  unfold fallback
  rw [h.config]

theorem Rearranged.nameOf_eq (h : Rearranged x x') (r : TargetRef) {a a' : Entry.Resolution}
    (hmatch : Matches x.entries x'.entries a a') : x.nameOf r a = x'.nameOf r a' := by
  cases hmatch with
  | found hplaced =>
    obtain ⟨e, e', he, he', hview⟩ := hplaced
    simp only [nameOf, he, he', Entry.runtime_eq_of_view_eq hview]
  | missing => simp only [nameOf, h.fallback_eq]
  | ambiguous _ => simp only [nameOf, h.fallback_eq]

/-- The same inline tables may be expanded. -/
theorem Rearranged.inline?_eq (h : Rearranged x x') (hplaced : Placed x.entries x'.entries i i')
    (hstack : List.Forall₂ (Placed x.entries x'.entries) stack stack') :
    (x.inline? stack i).map (Prod.map (view x.entries) id) =
      (x'.inline? stack' i').map (Prod.map (view x'.entries) id) := by
  -- Neither the entry that is written nor one that is being expanded is expanded again.
  have hroot := h.entries.position_eq_iff hplaced h.root
  have hmem := h.entries.mem_iff hplaced hstack
  obtain ⟨e, e', he, he', hview⟩ := hplaced
  simp only [inline?, he, he', ← Entry.registration_eq_of_view_eq hview]
  split
  · simp only [ne_eq, hroot, hmem]
    split
    · simp only [Option.map_some, Prod.map_apply, id, hview]
    · rfl
  · rfl

/-- In both arrangements a text is filled in with the same texts. -/
theorem Rearranged.pieces_eq (h : Rearranged x x') {owner owner' : Entry}
    {ps : List Deferred.Piece}
    (hstack : List.Forall₂ (Placed x.entries x'.entries) stack stack')
    (howner : view x.entries owner = view x'.entries owner') :
    x.pieces stack owner ps = x'.pieces stack' owner' ps := by
  -- The expansion ends because the stack holds ever more entries, so the induction is on its own
  -- recursion, not on the text.
  induction stack, owner, ps using pieces.induct x generalizing stack' owner' with
  | case1 => rw [pieces, pieces]
  | case2 stack owner s rest ih => rw [pieces, pieces, ih hstack howner]
  | case3 stack owner d rest ihInline ih =>
    have hruntime := Entry.runtime_eq_of_view_eq howner
    cases d with
    | selfTarget => rw [pieces, pieces, ih hstack howner, hruntime]
    | selfSchema => rw [pieces, pieces, ih hstack howner, hruntime]
    | selfDatabase => rw [pieces, pieces, ih hstack howner, hruntime]
    | target r =>
      rw [pieces_target, pieces_target, ih hstack howner]
      congr 1
      have hmatch := h.entries.resolve_matches r
      have hname := h.nameOf_eq r hmatch
      generalize Entry.resolve x.entries r = a at hmatch hname ⊢
      generalize Entry.resolve x'.entries r = a' at hmatch hname ⊢
      cases hmatch with
      | missing => exact hname
      | ambiguous _ => exact hname
      | @found i i' hplaced =>
        have hinline := h.inline?_eq hplaced hstack
        -- An inline table is expanded with both stacks one deeper.
        rcases hi : x.inline? stack i with _ | ⟨e, query⟩ <;>
          rcases hi' : x'.inline? stack' i' with _ | ⟨e', query'⟩ <;>
          rw [hi, hi'] at hinline
        · simpa only [standIn, hi, hi'] using hname
        · cases hinline
        · cases hinline
        · simp only [Option.map_some, Prod.map_apply, id, Option.some.injEq,
            Prod.mk.injEq] at hinline
          obtain ⟨hview, rfl⟩ := hinline
          simp only [standIn, hi, hi']
          rw [ihInline i e query hi (.cons hplaced hstack) hview]

theorem Rearranged.text_eq (h : Rearranged x x') {owner owner' : Entry}
    (howner : view x.entries owner = view x'.entries owner') (s : String) :
    x.text owner s = x'.text owner' s :=
  h.pieces_eq .nil howner

end Expansion

end SqlWorkflow
