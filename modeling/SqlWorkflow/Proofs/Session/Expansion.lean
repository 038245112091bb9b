import SqlWorkflow.Proofs.Session.Arrangement

/-!
# How markers are filled in

- **§1** A text is filled in marker by marker (`text_eq_substitute`).
- **§2** Inline tables, and the references in their queries.
- **§3** What a reference resolves to depends only on the names of the entries (`resolve_congr`).
- **§4** Two expansions fill in a text in the same way if they expand the same tables among those
  that the text leads to (`pieces_congr`).
-/

namespace SqlWorkflow

open Relation

/-! ## §1 Marker by marker -/

namespace Deferred

/-- The references in a text. -/
def targets (text : String) : List TargetRef :=
  (pieces text).filterMap fun
    | .marker (.target r) => some r
    | _ => none

theorem mem_targets_iff {r : TargetRef} {text : String} :
    r ∈ targets text ↔ .marker (.target r) ∈ pieces text := by
  unfold targets
  rw [List.mem_filterMap]
  constructor
  · rintro ⟨piece, hpiece, hr⟩
    split at hr
    · cases hr
      exact hpiece
    · cases hr
  · intro hpiece
    exact ⟨.marker (.target r), hpiece, rfl⟩

end Deferred

namespace Expansion

/-- What stands for a marker. -/
def fill (x : Expansion) (stack : List Nat) (owner : Entry) : Deferred → String
  | .target r => x.standIn stack r (Entry.resolve x.entries r)
  | .selfTarget => owner.runtime.quoted
  | .selfSchema => owner.runtime.schema
  | .selfDatabase => owner.runtime.database.getD ""

theorem pieces_cons_marker (x : Expansion) (stack : List Nat) (owner : Entry) (d : Deferred)
    (rest : List Deferred.Piece) :
    x.pieces stack owner (.marker d :: rest) =
      x.fill stack owner d ++ x.pieces stack owner rest := by
  cases d with
  | target r => exact x.pieces_target stack owner r rest
  | selfTarget => rw [pieces, fill]
  | selfSchema => rw [pieces, fill]
  | selfDatabase => rw [pieces, fill]

theorem pieces_eq_substitute (x : Expansion) (stack : List Nat) (owner : Entry) (s : String) :
    x.pieces stack owner (Deferred.pieces s) = Deferred.substitute (x.fill stack owner) s := by
  unfold Deferred.substitute
  induction Deferred.pieces s with
  | nil => rw [pieces, List.map_nil, String.join_nil]
  | cons piece rest ih =>
    rw [List.map_cons, String.join_cons, ← ih]
    cases piece with
    | literal s => rw [pieces]
    | marker d => exact x.pieces_cons_marker stack owner d rest

/-- The text of an action is filled in marker by marker. -/
theorem text_eq_substitute (x : Expansion) (owner : Entry) :
    x.text owner = Deferred.substitute (x.fill [] owner) :=
  funext (x.pieces_eq_substitute [] owner)

end Expansion

/-! ## §2 Inline tables -/

namespace Entry

/-- The query of an inline table. -/
def inlineQuery? (e : Entry) : Option String :=
  match e.registration.payload with
  | .table body => if body.type = .inline then some body.query else none
  | _ => none

/-- The position that a reference resolves to. -/
def Resolution.position? : Resolution → Option Nat
  | .found i => some i
  | _ => none

/-- The positions that the references in the query of an inline table resolve to. -/
def references (entries : List Entry) (i : Nat) : List Nat :=
  match entries[i]?.bind inlineQuery? with
  | none => []
  | some query => (Deferred.targets query).filterMap fun r => (resolve entries r).position?

/-- The query of an inline table refers to an inline table. -/
def Inlines (entries : List Entry) (i j : Nat) : Prop :=
  j ∈ references entries i ∧ (entries[j]?.bind inlineQuery?).isSome

variable {entries : List Entry} {i j k : Nat} {query : String}

theorem mem_references (hquery : entries[i]?.bind inlineQuery? = some query) {r : TargetRef}
    (hr : r ∈ Deferred.targets query) (hj : resolve entries r = .found j) :
    j ∈ references entries i := by
  simp only [references, hquery]
  apply List.mem_filterMap.2 ⟨r, hr, ?_⟩
  rw [hj]
  rfl

theorem isSome_of_mem_references (h : j ∈ references entries i) :
    (entries[i]?.bind inlineQuery?).isSome := by
  unfold references at h
  split at h
  · cases h
  · next hquery => simp [hquery]

/-- A chain of references that ends at an inline table goes through inline tables only. -/
theorem transGen_inlines (h : TransGen (fun i j => j ∈ references entries i) i k)
    (hk : (entries[k]?.bind inlineQuery?).isSome) : TransGen (Inlines entries) i k := by
  induction h with
  | single hik => exact .single ⟨hik, hk⟩
  | tail _ hjk ih => exact (ih (isSome_of_mem_references hjk)).tail ⟨hjk, hk⟩

/-- If every inline table refers to earlier ones only, there is no circle. -/
theorem not_transGen_inlines (entries : List Entry)
    (h : ∀ i < entries.length, ∀ j ∈ references entries i, j < i) (i : Nat) :
    ¬ TransGen (Inlines entries) i i := by
  -- Positions only go down along references, so that none is reached from itself.
  have hdown : ∀ {i j}, TransGen (Inlines entries) i j → j < i := by
    have hstep : ∀ {i j}, Inlines entries i j → j < i := by
      rintro i j ⟨hij, -⟩
      apply h i _ j hij
      have hsome := isSome_of_mem_references hij
      by_contra hlt
      rw [List.getElem?_eq_none (Nat.not_lt.1 hlt)] at hsome
      cases hsome
    intro i j hij
    induction hij with
    | single hij => exact hstep hij
    | tail _ hjk ih => exact Nat.lt_trans (hstep hjk) ih
  intro hcircle
  exact Nat.lt_irrefl i (hdown hcircle)

end Entry

namespace Expansion

variable {x : Expansion} {stack : List Nat} {i : Nat}

/-- An inline table is expanded unless it is the action that is written or on the stack. -/
theorem inline?_eq_some_iff {e : Entry} {query : String} :
    x.inline? stack i = some (e, query) ↔
      x.entries[i]? = some e ∧ e.inlineQuery? = some query ∧ i ≠ x.root ∧ i ∉ stack := by
  constructor
  · intro h
    unfold inline? at h
    split at h
    · cases h
    · next e' he =>
      split at h
      · next body hbody =>
        split at h
        · next hcond =>
          cases h
          exact ⟨he, by simp [Entry.inlineQuery?, hbody, hcond.1], hcond.2⟩
        · cases h
      · cases h
  · rintro ⟨he, hquery, hfree⟩
    unfold Entry.inlineQuery? at hquery
    split at hquery
    · next body hbody =>
      split at hquery
      · next htype =>
        cases hquery
        simp [inline?, he, hbody, htype, hfree]
      · cases hquery
    · cases hquery

/-- A table on the stack is not expanded; for all others the stack is the one below it. -/
theorem inline?_cons {k : Nat} :
    x.inline? (i :: stack) k = if k = i then none else x.inline? stack k := by
  ext ⟨e, query⟩
  split
  · next heq => simp [inline?_eq_some_iff, heq]
  · next hne => simp [inline?_eq_some_iff, hne]

end Expansion

/-! ## §3 Names -/

namespace Entry

variable {es es' : List Entry}

/-- Both names of an entry. -/
def names (e : Entry) : Target × Target := (e.canonical, e.runtime)

theorem map_names_positions (p : Target × Target → Bool) (es : List Entry) :
    (positions (fun e => p e.names) es).map (fun c => (c.1, c.2.names)) =
      (((es.map names).zipIdx.filter fun c => p c.1).map fun c => (c.2, c.1)) := by
  simp only [positions, List.zipIdx_map, List.filter_map, List.map_map]
  rfl

/-- Entries with the same names have the same positions. -/
theorem positions_congr (hnames : es.map names = es'.map names) (p : Target × Target → Bool) :
    (positions (fun e => p e.names) es).map (fun c => (c.1, c.2.names)) =
      (positions (fun e => p e.names) es').map fun c => (c.1, c.2.names) := by
  rw [map_names_positions, map_names_positions, hnames]

theorem candidates_congr (hnames : es.map names = es'.map names) (r : TargetRef) :
    (candidates es r).map (fun c => (c.1, c.2.names)) =
      (candidates es' r).map fun c => (c.1, c.2.names) := by
  have hcanonical := positions_congr hnames fun n => decide (r.Fits n.1)
  have hruntime := positions_congr hnames fun n => decide (r.Fits n.2)
  have hempty : (positions (fun e => decide (r.Fits e.canonical)) es).isEmpty =
      (positions (fun e => decide (r.Fits e.canonical)) es').isEmpty := by
    have hmapped := congrArg List.isEmpty hcanonical
    rw [List.isEmpty_map, List.isEmpty_map] at hmapped
    exact hmapped
  simp only [candidates, hempty]
  split
  · exact hruntime
  · exact hcanonical

theorem map_names_ranked (hnodup : (es.map (·.runtime)).Nodup) (r : TargetRef) :
    (ranked es r).map (fun c => (c.1, c.2.names)) =
      ((candidates es r).map fun c => (c.1, c.2.names)).mergeSort fun a b => a.2.2.le b.2.2 := by
  unfold ranked
  rw [distinct_eq_self (candidates_runtime_nodup hnodup r)]
  exact List.map_mergeSort fun _ _ _ _ => rfl

theorem map_runtime_eq_of_names (hnames : es.map names = es'.map names) :
    es.map (·.runtime) = es'.map (·.runtime) := by
  have hruntime := congrArg (List.map Prod.snd) hnames
  rw [List.map_map, List.map_map] at hruntime
  exact hruntime

/-- What a reference resolves to depends only on the names of the entries. -/
theorem resolve_congr (hnames : es.map names = es'.map names)
    (hnodup : (es.map (·.runtime)).Nodup) (r : TargetRef) : resolve es r = resolve es' r := by
  have hnodup' : (es'.map (·.runtime)).Nodup := map_runtime_eq_of_names hnames ▸ hnodup
  have hranked := map_names_ranked hnodup r
  rw [candidates_congr hnames, ← map_names_ranked hnodup'] at hranked
  -- The positions are what is left of the ranking without the names.
  have hpositions := congrArg (List.map Prod.fst) hranked
  rw [List.map_map, List.map_map] at hpositions
  rw [resolve_eq_ofPositions, resolve_eq_ofPositions]
  exact congrArg Resolution.ofPositions hpositions

end Entry

/-! ## §4 Alike expansions -/

namespace Expansion

variable {x x' : Expansion} {stack stack' : List Nat} {i : Nat}

/-- Two expansions in which references resolve to the same positions, with the same names. -/
structure Alike (x x' : Expansion) : Prop where
  config : x.config = x'.config
  resolve : ∀ r, Entry.resolve x.entries r = Entry.resolve x'.entries r
  targetAt : ∀ i, Entry.targetAt x.entries i = Entry.targetAt x'.entries i

theorem Alike.of_names (hconfig : x.config = x'.config)
    (hnames : x.entries.map Entry.names = x'.entries.map Entry.names)
    (hnodup : (x.entries.map (·.runtime)).Nodup) : Alike x x' where
  config := hconfig
  resolve := Entry.resolve_congr hnames hnodup
  targetAt i := by
    have hruntime := congrArg (·[i]?) (Entry.map_runtime_eq_of_names hnames)
    simpa [Entry.targetAt] using hruntime

theorem Alike.nameOf_eq (h : Alike x x') (r : TargetRef) (a : Entry.Resolution) :
    x.nameOf r a = x'.nameOf r a := by
  have hfallback : x.fallback r = x'.fallback r := by
    unfold fallback
    rw [h.config]
  cases a with
  | missing => simp only [nameOf, hfallback]
  | ambiguous positions => simp only [nameOf, hfallback]
  | found i =>
    have htarget := h.targetAt i
    unfold Entry.targetAt at htarget
    simp only [nameOf]
    cases he : x.entries[i]? <;> cases he' : x'.entries[i]? <;> simp_all

/-- The expansions expand the same tables among those that a text leads to. -/
def Agree (x x' : Expansion) (stack stack' : List Nat) (ps : List Deferred.Piece) : Prop :=
  ∀ r i, .marker (.target r) ∈ ps → Entry.resolve x.entries r = .found i →
    ∀ k, ReflTransGen (fun i j => j ∈ Entry.references x.entries i) i k →
      x.inline? stack k = x'.inline? stack' k

theorem Agree.tail {ps : List Deferred.Piece} {piece : Deferred.Piece}
    (h : Agree x x' stack stack' (piece :: ps)) : Agree x x' stack stack' ps := by
  intro r i hr
  exact h r i (List.mem_cons_of_mem _ hr)

/-- The queries of the tables that are expanded lead nowhere else. -/
theorem Agree.query {ps : List Deferred.Piece} {r : TargetRef} {e : Entry} {query : String}
    (h : Agree x x' stack stack' ps) (hr : .marker (.target r) ∈ ps)
    (hi : Entry.resolve x.entries r = .found i) (hinline : x.inline? stack i = some (e, query)) :
    Agree x x' (i :: stack) (i :: stack') (Deferred.pieces query) := by
  obtain ⟨he, hquery, -⟩ := inline?_eq_some_iff.1 hinline
  intro r' j hr' hj k hk
  have hij : j ∈ Entry.references x.entries i := by
    apply Entry.mem_references _ (Deferred.mem_targets_iff.2 hr') hj
    rw [he]
    exact hquery
  -- The table itself may be among them, but then it is on both stacks now.
  rw [inline?_cons, inline?_cons, h r i hr hi k (.head hij hk)]

/-- Expansions that expand the same tables among those that a text leads to fill it in in the same
way. -/
theorem pieces_congr (halike : Alike x x') {owner : Entry} {ps : List Deferred.Piece}
    (h : Agree x x' stack stack' ps) : x.pieces stack owner ps = x'.pieces stack' owner ps := by
  -- As the expansion itself, over the stack first and the text second.
  induction stack, owner, ps using pieces.induct x generalizing stack' with
  | case1 => rw [pieces, pieces]
  | case2 stack owner s rest ih => rw [pieces, pieces, ih h.tail]
  | case3 stack owner d rest ihInline ih =>
    rw [pieces_cons_marker, pieces_cons_marker, ih h.tail]
    congr 1
    cases d with
    | selfTarget => rfl
    | selfSchema => rfl
    | selfDatabase => rfl
    | target r =>
      simp only [fill, ← halike.resolve r]
      cases hr : Entry.resolve x.entries r with
      | missing => simpa only [standIn] using halike.nameOf_eq r .missing
      | ambiguous positions => simpa only [standIn] using halike.nameOf_eq r (.ambiguous positions)
      | found i =>
        have hsame := h r i List.mem_cons_self hr i .refl
        cases hinline : x.inline? stack i with
        | none =>
          rw [hinline] at hsame
          simp only [standIn, hinline, ← hsame]
          exact halike.nameOf_eq r _
        | some found =>
          obtain ⟨e, query⟩ := found
          rw [hinline] at hsame
          simp only [standIn, hinline, ← hsame]
          rw [ihInline i e query hinline (h.query List.mem_cons_self hr hinline)]

end Expansion

end SqlWorkflow
