import SqlWorkflow.Proofs.Session.ErrorKinds
import SqlWorkflow.Proofs.Session.MarkerFree

/-!
# Filling in, step by step

Filling in is said here as a system that takes one step after another and changes a stack on the
way.  Where an inline table is expanded, its position is pushed, the pieces of its query come next,
and then it is popped again.  Nothing in the steps themselves says that they come to an end: inline
tables may refer to each other and to themselves as they like.

- **§1** The steps (`Filling.step?`).
- **§2** What one step keeps of the stack, and so every state of a run (`admits_run`): no table is
  on it twice, the action that is written is not, and it is never longer than there are inline
  tables (`Admits.length_le`).
- **§3** A run through a text ends, with the stack it began with and the text that
  `Expansion.pieces` gives (`leads_pieces`).
- **§4** A run through all texts of an action, and what it finds wrong with them (`leads_texts`).
  What a graph says about operations without output is just that.
-/

namespace SqlWorkflow

/-! ## §1 Steps -/

/-- Something that is left to do. -/
inductive Task where
  /-- A piece of a text that belongs to the owner. -/
  | piece (owner : Entry) (p : Deferred.Piece)
  /-- The query of the innermost inline table ends here. -/
  | close
  /-- A text of the action ends here. -/
  | finish

/-- How far the texts of an action are filled in. -/
structure Filling where
  /-- The inline tables that are being expanded, by position, the innermost first. -/
  stack : List Nat := []
  tasks : List Task
  /-- What has been written of the text at hand. -/
  written : String := ""
  /-- The texts that are complete. -/
  texts : List String := []
  /-- What is wrong with the action's own texts, nothing twice. -/
  problems : List FindingCause := []

namespace Filling

/-- What there is to do for a text. -/
def textTasks (owner : Entry) (s : String) : List Task :=
  (Deferred.pieces s).map (.piece owner)

/-- What there is to do for all texts of an action. -/
def start (e : Entry) : Filling where
  tasks := e.ownTexts.flatMap fun s => textTasks e s ++ [.finish]

/-- A text is written. -/
def write (f : Filling) (rest : List Task) (s : String) : Filling :=
  { f with tasks := rest, written := f.written ++ s }

/-- The query of the inline table at a position comes next, between parentheses. -/
def expand (f : Filling) (rest : List Task) (position : Nat) (e : Entry) (query : String) :
    Filling :=
  { f with
    stack := position :: f.stack
    tasks := textTasks e query ++ .close :: rest
    written := f.written ++ "(" }

/-- A reference that is not expanded is noted if it is to an operation without output, unless it
stands in the query of an inline table. -/
def note (x : Expansion) (f : Filling) (r : TargetRef) : Filling :=
  if f.stack = [] ∧ Entry.isOutputless x.entries r then
    { f with problems := f.problems.insert .outputless }
  else f

/-- A marker of a text that belongs to the owner. -/
def fillMarker (x : Expansion) (f : Filling) (rest : List Task) (owner : Entry) :
    Deferred → Filling
  | .target r =>
    match Entry.resolve x.entries r with
    | .found i =>
      match x.inline? f.stack i with
      | some (e, query) => f.expand rest i e query
      | none => (f.note x r).write rest (x.nameOf r (.found i))
    | other => f.write rest (x.nameOf r other)
  | .selfTarget => f.write rest owner.runtime.quoted
  | .selfSchema => f.write rest owner.runtime.schema
  | .selfDatabase => f.write rest (owner.runtime.database.getD "")

/-- The next step, unless there is nothing left to do. -/
def step? (x : Expansion) (f : Filling) : Option Filling :=
  match f.tasks with
  | [] => none
  | .piece _ (.literal s) :: rest => some (f.write rest s)
  | .piece owner (.marker d) :: rest => some (f.fillMarker x rest owner d)
  | .close :: rest => some { f.write rest ")" with stack := f.stack.tail }
  | .finish :: rest => some { f with tasks := rest, texts := f.texts ++ [f.written], written := "" }

/-- The state after so many steps, or where there is nothing left to do. -/
def run (x : Expansion) : Nat → Filling → Filling
  | 0, f => f
  | n + 1, f =>
    match f.step? x with
    | some g => run x n g
    | none => f

end Filling

/-! ## §2 The stack -/

namespace Expansion

/-- The stack holds inline tables, none of them twice, and not the action that is written. -/
structure Admits (x : Expansion) (stack : List Nat) : Prop where
  nodup : stack.Nodup
  root : x.root ∉ stack
  inline : ∀ i ∈ stack, ∃ e, x.entries[i]? = some e ∧ e.inlineQuery?.isSome

variable {x : Expansion} {stack : List Nat}

theorem admits_nil (x : Expansion) : x.Admits [] :=
  ⟨List.nodup_nil, List.not_mem_nil, fun _ h => absurd h List.not_mem_nil⟩

/-- A table is pushed only if it may be. -/
theorem Admits.cons (h : x.Admits stack) {i : Nat} {e : Entry} {query : String}
    (hinline : x.inline? stack i = some (e, query)) : x.Admits (i :: stack) := by
  obtain ⟨he, hquery, hroot, hfresh⟩ := inline?_eq_some_iff.1 hinline
  constructor
  · exact List.nodup_cons.2 ⟨hfresh, h.nodup⟩
  · simp [h.root, Ne.symm hroot]
  · intro j hj
    rcases List.mem_cons.1 hj with rfl | hj
    · exact ⟨e, he, by simp [hquery]⟩
    · exact h.inline j hj

theorem Admits.tail (h : x.Admits stack) : x.Admits stack.tail where
  nodup := h.nodup.sublist stack.tail_sublist
  root hmem := h.root (List.mem_of_mem_tail hmem)
  inline i hi := h.inline i (List.mem_of_mem_tail hi)

/-- The number of inline tables. -/
def inlineCount (x : Expansion) : Nat := x.entries.countP fun e => e.inlineQuery?.isSome

/-- Elements can be counted by position. -/
theorem countP_eq_length_positions {α : Type} (p : α → Bool) (l : List α) :
    l.countP p = ((List.range l.length).filter fun i => l[i]?.any p).length := by
  induction l with
  | nil => rfl
  | cons a l ih =>
    rw [List.length_cons, List.range_succ_eq_map, List.countP_cons, List.filter_cons,
      List.filter_map, ih]
    -- The positions of the tail are one higher in the whole list.
    have hsucc : ((fun i => (a :: l)[i]?.any p) ∘ Nat.succ) = fun i => l[i]?.any p := by
      funext i
      simp
    rw [hsucc]
    cases hp : p a <;> simp [hp]

/-- There are not more tables on the stack than there are inline tables. -/
theorem Admits.length_le (h : x.Admits stack) : stack.length ≤ x.inlineCount := by
  -- The stack is a list without repetition, all of whose elements are positions of inline tables.
  rw [inlineCount, countP_eq_length_positions]
  apply (List.subperm_of_subset h.nodup _).length_le
  intro i hi
  obtain ⟨e, he, hquery⟩ := h.inline i hi
  rw [List.mem_filter, List.mem_range]
  exact ⟨(List.getElem?_eq_some_iff.1 he).1, by simp [he, hquery]⟩

end Expansion

namespace Filling

variable {x : Expansion} {f g h : Filling} {rest : List Task}

@[simp] theorem write_stack (s : String) : (f.write rest s).stack = f.stack := rfl

@[simp] theorem expand_stack (i : Nat) (e : Entry) (query : String) :
    (f.expand rest i e query).stack = i :: f.stack := rfl

@[simp] theorem note_stack (r : TargetRef) : (f.note x r).stack = f.stack := by
  unfold note
  split <;> rfl

theorem admits_fillMarker (hf : x.Admits f.stack) (owner : Entry) (d : Deferred) :
    x.Admits (f.fillMarker x rest owner d).stack := by
  cases d with
  | target r =>
    simp only [fillMarker]
    split
    · split
      -- Only here a table is pushed.
      · next e query hinline => exact hf.cons hinline
      · simpa using hf
    · exact hf
  | _ => exact hf

/-- One step keeps what is said of the stack. -/
theorem admits_step? (hf : x.Admits f.stack) (hstep : f.step? x = some g) : x.Admits g.stack := by
  unfold step? at hstep
  split at hstep
  · cases hstep
  · cases hstep
    exact hf
  · cases hstep
    exact admits_fillMarker hf _ _
  · cases hstep
    exact hf.tail
  · cases hstep
    exact hf

/-- And so do any number of steps. -/
theorem admits_run (hf : x.Admits f.stack) (n : Nat) : x.Admits (run x n f).stack := by
  induction n generalizing f with
  | zero => exact hf
  | succ n ih =>
    unfold run
    split
    · next g hstep => exact ih (admits_step? hf hstep)
    · exact hf

/-! ## §3 Texts -/

/-- A run from one state to another, with the same tables at the bottom of the stack all the way. -/
inductive Leads (x : Expansion) (base : List Nat) : Filling → Filling → Prop
  | done {f : Filling} (hf : base <:+ f.stack) : Leads x base f f
  | step {f g h : Filling} (hf : base <:+ f.stack) (hstep : f.step? x = some g)
      (hrest : Leads x base g h) : Leads x base f h

namespace Leads

variable {base : List Nat}

theorem trans (hfg : Leads x base f g) (hgh : Leads x base g h) : Leads x base f h := by
  induction hfg with
  | done => exact hgh
  | step hf hstep _ ih => exact .step hf hstep (ih hgh)

/-- What stands on more tables stands on fewer. -/
theorem mono {below : List Nat} (hbelow : below <:+ base) (hfg : Leads x base f g) :
    Leads x below f g := by
  induction hfg with
  | done hf => exact .done (hbelow.trans hf)
  | step hf hstep _ ih => exact .step (hbelow.trans hf) hstep ih

/-- The run takes some number of steps. -/
theorem exists_run (hfg : Leads x base f g) :
    ∃ n, run x n f = g ∧ ∀ m ≤ n, base <:+ (run x m f).stack := by
  induction hfg with
  | @done f hf =>
    refine ⟨0, rfl, ?_⟩
    intro m hm
    obtain rfl := Nat.le_zero.1 hm
    exact hf
  | @step f g h hf hstep _ ih =>
    obtain ⟨n, hn, hall⟩ := ih
    refine ⟨n + 1, by rw [run, hstep]; exact hn, ?_⟩
    intro m hm
    cases m with
    | zero => exact hf
    | succ m =>
      rw [run, hstep]
      exact hall m (Nat.le_of_succ_le_succ hm)

end Leads

/-- Does one of the pieces refer to an operation without output? -/
def refersOutputless (x : Expansion) (ps : List Deferred.Piece) : Bool :=
  ps.any fun
    | .marker (.target r) => Entry.isOutputless x.entries r
    | _ => false

/-- The problems after it is known whether the action's own text refers to an operation without
output. -/
def noted (problems : List FindingCause) (outputless : Bool) : List FindingCause :=
  if outputless then problems.insert .outputless else problems

/-- The state after the pieces of a text have been written. -/
def after (x : Expansion) (f : Filling) (rest : List Task) (ps : List Deferred.Piece)
    (written : String) : Filling :=
  { f with
    tasks := rest
    written := f.written ++ written
    problems := noted f.problems (f.stack.isEmpty && refersOutputless x ps) }

/-- An inline table is no operation. -/
theorem isOutputless_of_inline? {r : TargetRef} {i : Nat} {e : Entry} {query : String}
    {stack : List Nat} (hr : Entry.resolve x.entries r = .found i)
    (hinline : x.inline? stack i = some (e, query)) : Entry.isOutputless x.entries r = false := by
  obtain ⟨he, hquery, -⟩ := Expansion.inline?_eq_some_iff.1 hinline
  unfold Entry.inlineQuery? at hquery
  split at hquery
  · next body hbody => simp [Entry.isOutputless, hr, he, hbody]
  · cases hquery

theorem noted_noted (problems : List FindingCause) (a b : Bool) :
    noted (noted problems a) b = noted problems (a || b) := by
  cases a <;> cases b <;> simp [noted]

/-- What is written piece by piece comes to the same as what is written at once. -/
theorem after_after (rest' : List Task) (ps qs : List Deferred.Piece) (s t : String) :
    (f.after x rest' ps s).after x rest qs t = f.after x rest (ps ++ qs) (s ++ t) := by
  have hrefers : refersOutputless x (ps ++ qs) =
      (refersOutputless x ps || refersOutputless x qs) := List.any_append
  simp only [after, noted_noted, hrefers, ← Bool.and_or_distrib_left, String.append_assoc]

theorem refersOutputless_target (r : TargetRef) :
    refersOutputless x [.marker (.target r)] = Entry.isOutputless x.entries r := by
  simp [refersOutputless]

/-- Writing a piece that refers to no operation without output. -/
theorem write_eq_after {p : Deferred.Piece} (hquiet : refersOutputless x [p] = false)
    (s : String) : f.write rest s = f.after x rest [p] s := by
  simp [write, after, hquiet, noted]

theorem note_eq (r : TargetRef) :
    f.note x r = { f with
      problems := noted f.problems
        (f.stack.isEmpty && refersOutputless x [.marker (.target r)]) } := by
  unfold note
  rw [refersOutputless_target]
  split
  · next h =>
    rw [h.1, h.2]
    rfl
  · next h =>
    have hquiet : (f.stack.isEmpty && Entry.isOutputless x.entries r) = false := by simpa using h
    rw [hquiet]
    rfl

/-- Is the marker a reference to an inline table that is expanded here? -/
def Expands (x : Expansion) (stack : List Nat) (d : Deferred) : Prop :=
  ∃ r i, d = .target r ∧ Entry.resolve x.entries r = .found i ∧ (x.inline? stack i).isSome

/-- A marker that is not expanded is written at once. -/
theorem fillMarker_of_not_expands {owner : Entry} {d : Deferred} (h : ¬ Expands x f.stack d) :
    f.fillMarker x rest owner d = f.after x rest [.marker d] (x.fill f.stack owner d) := by
  cases d with
  | selfTarget => exact write_eq_after rfl _
  | selfSchema => exact write_eq_after rfl _
  | selfDatabase => exact write_eq_after rfl _
  | target r =>
    simp only [fillMarker, Expansion.fill]
    cases hr : Entry.resolve x.entries r with
    | found i =>
      -- A table that could be expanded would be.
      have hinline : x.inline? f.stack i = none := by
        by_contra hsome
        exact h ⟨r, i, rfl, hr, Option.isSome_iff_ne_none.2 hsome⟩
      simp only [hinline, Expansion.standIn, note_eq, write, after]
    -- What does not resolve to one entry resolves to no operation.
    | missing =>
      apply write_eq_after
      simp [refersOutputless_target, Entry.isOutputless, hr]
    | ambiguous positions =>
      apply write_eq_after
      simp [refersOutputless_target, Entry.isOutputless, hr]

/-- From one step it is a run of one step. -/
theorem Leads.single {base : List Nat} (hf : base <:+ f.stack) (hg : base <:+ g.stack)
    (hstep : f.step? x = some g) : Leads x base f g :=
  .step hf hstep (.done hg)

/-- Where an inline table is expanded, its query is written between parentheses, one table deeper,
if a run through the query does so. -/
theorem leads_expand {owner e : Entry} {r : TargetRef} {i : Nat} {query : String}
    (hr : Entry.resolve x.entries r = .found i) (hinline : x.inline? f.stack i = some (e, query))
    (htasks : f.tasks = .piece owner (.marker (.target r)) :: rest)
    (hinner : Leads x (i :: f.stack) (f.expand rest i e query)
      ((f.expand rest i e query).after x (.close :: rest) (Deferred.pieces query)
        (x.pieces (i :: f.stack) e (Deferred.pieces query)))) :
    Leads x f.stack f (f.write rest (x.fill f.stack owner (.target r))) := by
  -- One step pushes the table, and one pops it when its query has been written.
  have hopen : f.step? x = some (f.expand rest i e query) := by
    simp only [step?, htasks, fillMarker, hr, hinline]
  -- The stack is not empty in between, so nothing has been noted.
  have hclose : ((f.expand rest i e query).after x (.close :: rest) (Deferred.pieces query)
      (x.pieces (i :: f.stack) e (Deferred.pieces query))).step? x =
        some (f.write rest (x.fill f.stack owner (.target r))) := by
    simp [step?, after, expand, write, Expansion.fill, Expansion.standIn, hr, hinline, noted,
      String.append_assoc]
  apply Leads.step List.suffix_rfl hopen
  apply (hinner.mono (List.suffix_cons i f.stack)).trans
  exact .single (List.suffix_cons i f.stack) List.suffix_rfl hclose

/-- A run through the pieces of a text writes what `Expansion.pieces` gives, and ends with the stack
that it began with. -/
theorem leads_pieces (x : Expansion) {stack : List Nat} {owner : Entry}
    {ps : List Deferred.Piece} (hstack : f.stack = stack)
    (htasks : f.tasks = ps.map (.piece owner) ++ rest) :
    Leads x stack f (f.after x rest ps (x.pieces stack owner ps)) := by
  -- As the expansion itself: over the tables that are not on the stack first, the text second.
  induction stack, owner, ps using Expansion.pieces.induct x generalizing f rest with
  | case1 stack owner =>
    have hsame : f.after x rest [] (x.pieces stack owner []) = f := by
      rw [Expansion.pieces]
      simp only [List.map_nil, List.nil_append] at htasks
      simp [after, refersOutputless, noted, ← htasks]
    rw [hsame]
    exact .done (hstack ▸ List.suffix_rfl)
  | case2 stack owner s ps ih =>
    subst hstack
    rw [Expansion.pieces, ← List.singleton_append, ← after_after (ps.map (.piece owner) ++ rest)]
    have hstep : f.step? x =
        some (f.after x (ps.map (.piece owner) ++ rest) [.literal s] s) := by
      rw [← write_eq_after rfl]
      simp [step?, htasks]
    refine Leads.trans ?_ (ih rfl rfl)
    exact .single List.suffix_rfl List.suffix_rfl hstep
  | case3 stack owner d ps ihInline ih =>
    subst hstack
    rw [Expansion.pieces_cons_marker, ← List.singleton_append,
      ← after_after (ps.map (.piece owner) ++ rest)]
    refine Leads.trans ?_ (ih rfl rfl)
    by_cases hexpands : Expands x f.stack d
    · -- An inline table is no operation, and the query of the table comes first.
      obtain ⟨r, i, rfl, hr, hsome⟩ := hexpands
      obtain ⟨⟨e, query⟩, hinline⟩ := Option.isSome_iff_exists.1 hsome
      have hquiet : refersOutputless x [.marker (.target r)] = false := by
        rw [refersOutputless_target]
        exact isOutputless_of_inline? hr hinline
      rw [← write_eq_after hquiet]
      exact leads_expand hr hinline htasks (ihInline i e query hinline rfl rfl)
    · rw [← fillMarker_of_not_expands hexpands]
      apply Leads.single List.suffix_rfl
      · rw [fillMarker_of_not_expands hexpands]
        exact List.suffix_rfl
      · simp [step?, htasks]

/-- A text is filled in to its end: it is taken off what is left to do, what was on the stack is
there again, and in between the tables on the stack are different inline tables, none of them the
action that is written. -/
theorem run_text (x : Expansion) (f : Filling) (owner : Entry) (s : String) (rest : List Task)
    (hstack : x.Admits f.stack) (htasks : f.tasks = textTasks owner s ++ rest) :
    ∃ n, (run x n f).tasks = rest ∧ (run x n f).stack = f.stack ∧
      (run x n f).written = f.written ++ x.pieces f.stack owner (Deferred.pieces s) ∧
      ∀ m ≤ n, f.stack <:+ (run x m f).stack ∧ (run x m f).stack.Nodup ∧
        x.root ∉ (run x m f).stack ∧ (run x m f).stack.length ≤ x.inlineCount := by
  obtain ⟨n, hn, hall⟩ := (leads_pieces x rfl htasks).exists_run
  refine ⟨n, ?_, ?_, ?_, ?_⟩
  · rw [hn]
    rfl
  · rw [hn]
    rfl
  · rw [hn]
    rfl
  · intro m hm
    have hadmits := admits_run hstack m
    exact ⟨hall m hm, hadmits.nodup, hadmits.root, hadmits.length_le⟩

/-- Two inline tables that refer to each other, one of them to itself as well, and a table that
refers to one of them. -/
def entangled : Session where
  config := {}
  coreVersion := "3.0.0"
  registrations :=
    [ { filePath := "a.sqlx", name := "a"
        payload := .table
          { type := .inline, query := reference "a" ++ " join " ++ reference "b" } },
      { filePath := "b.sqlx", name := "b"
        payload := .table { type := .inline, query := reference "a" } },
      { filePath := "c.sqlx", name := "c", payload := .table { query := reference "b" } } ]
where
  reference (name : String) : String := (Deferred.target (.named name)).encode

/-- The query of the table is filled in with no more than two tables on the stack. -/
theorem run_text_entangled :
    ∃ e, entangled.entries[2]? = some e ∧ ∃ n,
      (run (entangled.expansion 2) n (start e)).tasks = [.finish] ∧
      (run (entangled.expansion 2) n (start e)).stack = [] ∧
      (run (entangled.expansion 2) n (start e)).written =
        (entangled.expansion 2).text e (entangled.reference "b") ∧
      ∀ m ≤ n, (run (entangled.expansion 2) m (start e)).stack.length ≤ 2 := by
  obtain ⟨e, he⟩ : ∃ e, entangled.entries[2]? = some e := ⟨_, rfl⟩
  have htexts : e.ownTexts = [entangled.reference "b"] := by
    cases he
    rfl
  have htasks : (start e).tasks = textTasks e (entangled.reference "b") ++ [.finish] := by
    simp [start, htexts]
  obtain ⟨n, hdone, hstack, hwritten, hall⟩ :=
    run_text (entangled.expansion 2) (start e) e (entangled.reference "b") [.finish]
      (Expansion.admits_nil _) htasks
  refine ⟨e, he, n, hdone, hstack, ?_, ?_⟩
  · rw [hwritten]
    exact String.empty_append
  · intro m hm
    exact (hall m hm).2.2.2

/-- What is on the stack is named. -/
example : entangled.entries[2]?.map (fun e => (run (entangled.expansion 2) 20 (start e)).texts) =
    some ["((`dataform.a` join `dataform.b`))"] := by
  decide +kernel

/-! ## §4 Actions -/

/-- While the query of an inline table is filled in, nothing is noted. -/
theorem problems_step? (hstack : f.stack ≠ []) (hstep : f.step? x = some g) :
    g.problems = f.problems := by
  unfold step? at hstep
  split at hstep
  · cases hstep
  · cases hstep
    rfl
  · next owner d rest htasks =>
    cases hstep
    cases d with
    | target r =>
      -- With a table on the stack the text is not the action's own.
      have hnote : f.note x r = f := by simp [note, hstack]
      simp only [fillMarker, hnote]
      split
      · split <;> rfl
      · rfl
    | _ => rfl
  · cases hstep
    rfl
  · cases hstep
    rfl

/-- A run through all texts of an action. -/
theorem leads_texts (x : Expansion) (e : Entry) (ss : List String) (hstack : f.stack = [])
    (hwritten : f.written = "")
    (htasks : f.tasks = ss.flatMap fun s => textTasks e s ++ [.finish]) :
    Leads x [] f { f with
      tasks := []
      texts := f.texts ++ ss.map (x.text e)
      problems := noted f.problems (ss.any fun s => refersOutputless x (Deferred.pieces s)) } := by
  -- The text at hand ends before the next one begins, so the induction is on the texts, and each
  -- begins where the one before it has ended.
  induction ss generalizing f with
  | nil =>
    simp only [List.flatMap_nil] at htasks
    simp only [List.map_nil, List.append_nil, List.any_nil, noted, ← htasks]
    exact .done List.nil_suffix
  | cons s ss ih =>
    rw [List.flatMap_cons, List.append_assoc, List.singleton_append] at htasks
    have htext := leads_pieces x hstack htasks
    -- The text is put away, and the next one begins with nothing written.
    have hfinish : Leads x [] f
        { f with
          tasks := ss.flatMap fun s => textTasks e s ++ [.finish]
          texts := f.texts ++ [x.text e s]
          problems := noted f.problems (refersOutputless x (Deferred.pieces s)) } := by
      apply htext.trans
      apply Leads.single List.nil_suffix List.nil_suffix
      simp [step?, after, hstack, hwritten, Expansion.text]
    apply hfinish.trans
    have hrest := @ih { f with
      tasks := ss.flatMap fun s => textTasks e s ++ [.finish]
      texts := f.texts ++ [x.text e s]
      problems := noted f.problems (refersOutputless x (Deferred.pieces s)) } hstack hwritten rfl
    simpa [noted_noted, List.append_assoc] using hrest

end Filling

/-- One of the entry's own texts refers to an operation without output. -/
def Entry.RefersOutputless (entries : List Entry) (e : Entry) : Prop :=
  ∃ text ∈ e.ownTexts, ∃ r ∈ Deferred.targets text, ∃ j d queries,
    resolve entries r = .found j ∧ entries[j]? = some d ∧
      d.registration.payload = .operation queries false

namespace Entry

variable {entries : List Entry} {e : Entry}

theorem isOutputless_iff {r : TargetRef} :
    isOutputless entries r = true ↔ ∃ j d queries, resolve entries r = .found j ∧
      entries[j]? = some d ∧ d.registration.payload = .operation queries false := by
  constructor
  · intro h
    unfold isOutputless at h
    split at h
    · next j hj =>
      cases hd : entries[j]? with
      | none => simp [hd] at h
      | some d =>
        rw [hd, Option.any_some] at h
        split at h
        · next queries hasOutput hpayload =>
          cases hasOutput with
          | false => exact ⟨j, d, queries, hj, hd, hpayload⟩
          | true => cases h
        · cases h
    · cases h
  · intro h
    obtain ⟨j, d, queries, hj, hd, hpayload⟩ := h
    simp [isOutputless, hj, hd, hpayload]

theorem refersOutputless_pieces (x : Expansion) (s : String) :
    Filling.refersOutputless x (Deferred.pieces s) =
      (Deferred.targets s).any (isOutputless x.entries) := by
  unfold Filling.refersOutputless Deferred.targets
  rw [List.any_filterMap]
  congr 1
  funext p
  cases p with
  | literal s => rfl
  | marker d => cases d <;> rfl

/-- Whether an action refers to an operation without output is told by the pieces of its texts. -/
theorem usesOutputless_eq (x : Expansion) (e : Entry) :
    usesOutputless x.entries e =
      e.ownTexts.any fun s => Filling.refersOutputless x (Deferred.pieces s) := by
  unfold usesOutputless Filling.refersOutputless Deferred.markers
  congr 1
  funext s
  rw [List.any_filterMap]
  congr 1
  funext p
  cases p with
  | literal s => rfl
  | marker d => cases d <;> rfl

theorem usesOutputless_iff : usesOutputless entries e = true ↔ RefersOutputless entries e := by
  rw [usesOutputless_eq ⟨default, entries, 0⟩]
  simp only [refersOutputless_pieces, List.any_eq_true, isOutputless_iff, RefersOutputless]

end Entry

namespace Session

open Filling

/-- The errors about operations without output, each with the entry at its position. -/
theorem errors_outputless_eq (s : Session) :
    (s.compile.errors .outputless).map some =
      ((Entry.positions (Entry.usesOutputless s.entries) s.entries).map (·.1)).map
        fun i => s.entries[i]?.map fun e =>
          { fileName := e.registration.filePath
            message := "Actions cannot resolve operations which do not produce output."
            actionTarget := some e.canonical } := by
  rw [errors_compile]
  show ((Entry.outputFindings s.entries).map Finding.toError).map some = _
  -- The findings are about the same entries as the positions.
  unfold Entry.outputFindings
  rw [← Entry.map_snd_positions, List.map_map, List.map_map, List.map_map, List.map_map]
  apply List.map_congr_left
  intro c hc
  have he : s.entries[c.1]? = some c.2 := (Entry.mem_positions_iff.1 hc).1
  simp only [Function.comp_apply, he]
  rfl

/-- The texts of an action are all filled in, and what they refer to is noted on the way. -/
theorem exists_run_start (s : Session) (i : Nat) (e : Entry) :
    ∃ n, run (s.expansion i) n (start e) =
      { tasks := []
        texts := (e.finish s.config s.entries i).filledTexts
        problems := noted [] (Entry.usesOutputless s.entries e) } := by
  obtain ⟨n, hn, -⟩ :=
    (leads_texts (f := start e) (s.expansion i) e e.ownTexts rfl rfl rfl).exists_run
  refine ⟨n, ?_⟩
  have huses : Entry.usesOutputless s.entries e =
      e.ownTexts.any fun t => refersOutputless (s.expansion i) (Deferred.pieces t) :=
    Entry.usesOutputless_eq (s.expansion i) e
  rw [hn, Entry.filledTexts_finish, huses]
  rfl

/-- Against an action that refers to an operation without output in a text of its own, this is
reported once, and against no other action; in the order of the actions, and as filling in their
texts finds it, which notes nothing while the query of an inline table is filled in. -/
theorem errors_outputless_compile (s : Session) :
    ∃ reported : List Nat, reported.Pairwise (· < ·) ∧
      (∀ i, i ∈ reported ↔ ∃ e, s.entries[i]? = some e ∧ e.RefersOutputless s.entries) ∧
      (s.compile.errors .outputless).map some = reported.map (fun i => s.entries[i]?.map fun e =>
        { fileName := e.registration.filePath
          message := "Actions cannot resolve operations which do not produce output."
          actionTarget := some e.canonical }) ∧
      ∀ i e, s.entries[i]? = some e →
        (∃ n, run (s.expansion i) n (start e) =
          { tasks := []
            texts := (e.finish s.config s.entries i).filledTexts
            problems := if i ∈ reported then [.outputless] else [] }) ∧
        ∀ m g, (run (s.expansion i) m (start e)).stack ≠ [] →
          (run (s.expansion i) m (start e)).step? (s.expansion i) = some g →
          g.problems = (run (s.expansion i) m (start e)).problems := by
  have hreported : ∀ i, i ∈ (Entry.positions (Entry.usesOutputless s.entries) s.entries).map (·.1) ↔
      ∃ e, s.entries[i]? = some e ∧ e.RefersOutputless s.entries := by
    intro i
    simp only [List.mem_map, Prod.exists, exists_and_right, exists_eq_right,
      Entry.mem_positions_iff, Entry.usesOutputless_iff]
  refine ⟨_, Entry.positions_increasing _ _, hreported, errors_outputless_eq s, ?_⟩
  intro i e he
  constructor
  · -- The run notes what the position of the action is selected for.
    obtain ⟨n, hn⟩ := exists_run_start s i e
    refine ⟨n, ?_⟩
    rw [hn]
    simp only [hreported, he, Option.some.injEq, exists_eq_left', ← Entry.usesOutputless_iff]
    simp [noted]
  · intro m g hstack hstep
    exact problems_step? hstack hstep

/-- An inline table that refers to an operation without output is reported.  A table into which its
query is filled in is not. -/
example :
    let reference := fun name => (Deferred.target (.named name)).encode
    let s : Session :=
      { config := {}
        coreVersion := "3.0.0"
        registrations :=
          [ { filePath := "log.sqlx", name := "log", payload := .operation ["select 1"] false },
            { filePath := "view.sqlx", name := "view"
              payload := .table { type := .inline, query := reference "log" } },
            { filePath := "reader.sqlx", name := "reader"
              payload := .table { query := reference "view" } } ] }
    s.compile.errors .outputless =
      [⟨"view.sqlx", "Actions cannot resolve operations which do not produce output.",
        some ⟨none, "dataform", "view"⟩⟩] := by
  decide +kernel

end Session

end SqlWorkflow
