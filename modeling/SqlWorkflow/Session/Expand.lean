import SqlWorkflow.Session.Finding

/-!
# Filling in markers

Once all entries are known, every marker in a text is replaced by a name or, if it stands for an
inline table, by the query of that table, in which markers are filled in the same way.

Tables whose query is being filled in are on a stack.  A table on the stack is not expanded again,
and neither is the action that the text belongs to: they are named instead.  So the stack never
holds a table twice, and filling in ends.
-/

namespace SqlWorkflow

/-- Where markers are filled in: the settings, all entries, and the position of the action that
the text belongs to. -/
structure Expansion where
  config : ProjectConfig
  entries : List Entry
  root : Nat

namespace Expansion

/-- The number of entries that are not on the stack. -/
def unstacked (x : Expansion) (stack : List Nat) : Nat :=
  (List.range x.entries.length).countP fun i => !stack.contains i

/-- The entry at a position and its query, if it is an inline table that may be expanded. -/
def inline? (x : Expansion) (stack : List Nat) (position : Nat) : Option (Entry × String) :=
  match x.entries[position]? with
  | none => none
  | some e =>
    match e.registration.payload with
    | .table body =>
      if body.type = .inline ∧ position ≠ x.root ∧ position ∉ stack then some (e, body.query)
      else none
    | _ => none

/-- A position that is put on the stack is not counted any more. -/
theorem countP_not_contains_cons_lt {position : Nat} {stack positions : List Nat}
    (hfresh : position ∉ stack) (hmem : position ∈ positions) :
    positions.countP (fun i => !(position :: stack).contains i) <
      positions.countP (fun i => !stack.contains i) := by
  -- What is not on the longer stack is not on the shorter one either.
  have hle (l : List Nat) : l.countP (fun i => !(position :: stack).contains i) ≤
      l.countP (fun i => !stack.contains i) :=
    List.countP_mono_left fun i _ hi => by simp_all
  induction positions with
  | nil => cases hmem
  | cons first rest ih =>
    rw [List.countP_cons, List.countP_cons]
    by_cases hfirst : first = position
    · subst hfirst
      have hrest := hle rest
      have hcounted : (!stack.contains first) = true := by simpa using hfresh
      have hskipped : (!(first :: stack).contains first) = false := by simp
      rw [hcounted, hskipped]
      simp only [Bool.false_eq_true, if_true, if_false]
      omega
    · have hrest := ih ((List.mem_cons.1 hmem).resolve_left (Ne.symm hfirst))
      have hsame : (position :: stack).contains first = stack.contains first := by simp [hfirst]
      rw [hsame]
      omega

theorem unstacked_lt {x : Expansion} {stack : List Nat} {position : Nat} {found : Entry × String}
    (h : x.inline? stack position = some found) :
    x.unstacked (position :: stack) < x.unstacked stack := by
  unfold inline? at h
  split at h
  · cases h
  · next e he =>
    obtain ⟨hlt, -⟩ := List.getElem?_eq_some_iff.1 he
    split at h
    · split at h
      · next hfree => exact countP_not_contains_cons_lt hfree.2.2 (List.mem_range.2 hlt)
      · cases h
    · cases h

/-- The name for a reference that resolves to no single entry. -/
def fallback (x : Expansion) (r : TargetRef) : Target :=
  Entry.runtimeTarget x.config .table
    { database := r.database.or x.config.defaultDatabase
      schema := r.schema.getD x.config.defaultSchema
      name := r.name }

/-- What stands for a reference that is not expanded. -/
def nameOf (x : Expansion) (r : TargetRef) : Entry.Resolution → String
  | .found i =>
    match x.entries[i]? with
    | some e => e.runtime.quoted
    | none => (x.fallback r).quoted
  | _ => (x.fallback r).quoted

/-- The text of the pieces of a text that belongs to `owner`, with all markers filled in. -/
def pieces (x : Expansion) (stack : List Nat) (owner : Entry) : List Deferred.Piece → String
  | [] => ""
  | .literal s :: rest => s ++ pieces x stack owner rest
  | .marker d :: rest =>
    let here := match d with
      | .target r =>
        match Entry.resolve x.entries r with
        | .found i =>
          match _h : x.inline? stack i with
          -- An inline table stands there with its query, and all others with their names.
          | some (e, query) => "(" ++ pieces x (i :: stack) e (Deferred.pieces query) ++ ")"
          | none => x.nameOf r (.found i)
        | other => x.nameOf r other
      | .selfTarget => owner.runtime.quoted
      | .selfSchema => owner.runtime.schema
      | .selfDatabase => owner.runtime.database.getD ""
    here ++ pieces x stack owner rest
termination_by ps => (x.unstacked stack, ps.length)
decreasing_by
  · exact Prod.Lex.right _ (Nat.lt_succ_self _)
  · exact Prod.Lex.left _ _ (unstacked_lt _h)
  · exact Prod.Lex.right _ (Nat.lt_succ_self _)

/-- A text of the action at the root, with all markers filled in. -/
def text (x : Expansion) (owner : Entry) (s : String) : String :=
  x.pieces [] owner (Deferred.pieces s)

end Expansion

/-! ## Finished actions -/

namespace Entry

/-- The texts of an entry in which markers are filled in. -/
def ownTexts (e : Entry) : List String :=
  match e.registration.payload with
  | .table b =>
    b.query :: b.incrementalQuery.toList ++ b.preOps ++ b.postOps ++ b.incrementalWhere.toList
  | .operation queries _ => queries
  | .assertion query => [query]
  | .declaration => []
  | .notebook _ => []

/-- Does the reference resolve to an operation without output? -/
def isOutputless (entries : List Entry) (r : TargetRef) : Bool :=
  match resolve entries r with
  | .found i =>
    entries[i]?.any fun e =>
      match e.registration.payload with
      | .operation _ hasOutput => !hasOutput
      | _ => false
  | _ => false

/-- Does one of the entry's own texts refer to an operation without output? -/
def usesOutputless (entries : List Entry) (e : Entry) : Bool :=
  e.ownTexts.any fun s => (Deferred.markers s).any fun
    | .target r => isOutputless entries r
    | _ => false

/-- What a finished action has in common with all others. -/
def header (entries : List Entry) (e : Entry) : ActionHeader where
  target := e.runtime
  canonicalTarget := e.canonical
  fileName := e.registration.filePath
  dependencyTargets := dependencyTargets entries e
  tags := e.registration.tags
  disabled := e.registration.disabled
  descriptor := if e.registration.descriptor.isEmpty then none else some e.registration.descriptor

/-- The finished action of the entry at a position. -/
def finish (config : ProjectConfig) (entries : List Entry) (e : Entry) (position : Nat) : Action :=
  let x : Expansion := ⟨config, entries, position⟩
  let fill := x.text e
  let header := header entries e
  match e.registration.payload with
  | .table b =>
    .table
      { header, type := b.type, query := fill b.query
        incrementalQuery := b.incrementalQuery.map fill
        preOps := b.preOps.map fill
        postOps := b.postOps.map fill
        incrementalWhere := b.incrementalWhere.map fill
        isProtected := b.isProtected, uniqueKey := b.uniqueKey, bigquery := b.bigquery }
  | .operation queries hasOutput => .operation { header, queries := queries.map fill, hasOutput }
  | .assertion query =>
    .assertion
      { header, query := fill query
        parentAction := e.parent.bind fun p => entries[p]?.map (·.runtime) }
  | .declaration => .declaration { header := { header with tags := [], disabled := false } }
  | .notebook contents => .notebook { header, contents }

/-- Actions that refer to an operation without output. -/
def outputFindings (entries : List Entry) : List Finding :=
  (entries.filter (usesOutputless entries)).map fun e => e.finding .outputless

end Entry

end SqlWorkflow
