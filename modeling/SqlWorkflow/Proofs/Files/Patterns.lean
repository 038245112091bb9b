import SqlWorkflow.Files.Pattern
import SqlWorkflow.Proofs.Files.Walks

/-!
# Patterns that stand for themselves

A path becomes a pattern when what has a meaning of its own in patterns is escaped.  Such a pattern
leads to where the path leads and nowhere else (`mem_expand_exact_iff`), and the segments after it
lead on from there (`mem_expand_append_iff`).

- **§1** Names.
- **§2** Paths.
- **§3** Where they lead.
-/

namespace SqlWorkflow

/-! ## §1 Names -/

theorem mem_names_of_lookupEntry {α : Type} {name : String} {value : α}
    {entries : List (String × α)} (h : lookupEntry name entries = some value) :
    name ∈ entries.map (·.1) := by
  induction entries with
  | nil => cases h
  | cons entry rest ih =>
    rw [lookupEntry] at h
    split at h
    · next heq => exact heq ▸ List.mem_cons_self
    · exact List.mem_cons_of_mem _ (ih h)

namespace NameToken

variable {s cs : List Char}

/-- What the pattern of a text says about one of its characters. -/
def exact (c : Char) : NameToken := if isMark c then .within [(c, c)] else .char c

theorem escape_cons (c : Char) (cs : List Char) :
    escape (c :: cs) = (if isMark c then ['[', c, ']'] else [c]) ++ escape cs := List.flatMap_cons

/-- An escaped text is read character by character. -/
theorem read_escape (cs : List Char) : read (escape cs) = some (cs.map exact) := by
  induction cs with
  | nil => simp [escape, read]
  | cons c cs ih =>
    rw [escape_cons]
    by_cases hc : isMark c = true
    · have hset : readSet (c :: ']' :: escape cs) = some (.within [(c, c)], escape cs) := by
        have hne : c ≠ '!' := by
          rintro rfl
          exact absurd hc (by decide)
        simp [readSet, hne, untilClosed, ranges]
      have hread : read ('[' :: c :: ']' :: escape cs) =
          (read (escape cs)).map (.within [(c, c)] :: ·) := by
        rw [read]
        split
        · next h =>
          rw [hset] at h
          cases h
          rfl
        · next h => exact absurd (hset.symm.trans h) (by simp)
      rw [if_pos hc]
      simp [hread, ih, exact, hc]
    · have hne : c ≠ '?' ∧ c ≠ '*' ∧ c ≠ '[' := by
        refine ⟨?_, ?_, ?_⟩ <;> rintro rfl <;> exact hc (by decide)
      have hread : read (c :: escape cs) = (read (escape cs)).map (.char c :: ·) := by
        rw [read]
        all_goals simp [hne]
      rw [if_neg hc]
      simp [hread, ih, exact, hc]

/-- No escaped text has a star at its start. -/
theorem escape_ne_stars (cs : List Char) : escape cs ≠ ['*', '*'] := by
  cases cs with
  | nil => exact List.cons_ne_nil _ _ ∘ Eq.symm
  | cons c cs =>
    rw [escape_cons]
    split
    · exact fun h => absurd (List.cons.inj h).1 (by decide)
    · next hc =>
      intro h
      obtain ⟨rfl, -⟩ := List.cons.inj h
      exact hc (by decide)

theorem accepts_exact (c d : Char) : (exact d).accepts c = (c == d) := by
  unfold exact
  split
  · have : (d ≤ c ∧ c ≤ d) ↔ c = d := ⟨fun h => Char.le_antisymm h.2 h.1, by rintro rfl; simp⟩
    simp only [accepts, List.any_cons, List.any_nil, Bool.or_false]
    rw [Bool.eq_iff_iff, Bool.and_eq_true, decide_eq_true_eq, decide_eq_true_eq, this, beq_iff_eq]
  · rfl

/-- A pattern that stands for itself matches one name. -/
theorem matchesAll_exact : matchesAll (s.map exact) cs = true ↔ cs = s := by
  induction s generalizing cs with
  | nil => simp [matchesAll]
  | cons c s ih =>
    have hstars : exact c ≠ .anyChars := by
      unfold exact
      split <;> simp
    cases cs with
    | nil => simp [matchesAll]
    | cons d cs =>
      rw [List.map_cons, matchesAll]
      · simp [accepts_exact, ih]
      · exact hstars

/-- If it has nothing to escape, it says so. -/
theorem eq_of_literal?_exact (h : literal? (s.map exact) = some cs) : cs = s := by
  induction s generalizing cs with
  | nil => exact (Option.some.inj h).symm
  | cons c s ih =>
    rw [List.map_cons, exact] at h
    split at h
    · cases h
    · obtain ⟨rest, hrest, rfl⟩ := Option.map_eq_some_iff.1 h
      rw [ih hrest]

theorem exists_isMark_of_literal?_exact (h : literal? (s.map exact) = none) :
    ∃ c ∈ s, isMark c = true := by
  induction s with
  | nil => cases h
  | cons c s ih =>
    rw [List.map_cons, exact] at h
    split at h
    · next hc => exact ⟨c, List.mem_cons_self, hc⟩
    · obtain ⟨d, hd, hmark⟩ := ih (Option.map_eq_none_iff.1 h)
      exact ⟨d, List.mem_cons_of_mem c hd, hmark⟩

end NameToken

/-! ## §2 Paths -/

/-- Nothing is escaped between segments. -/
theorem Text.splitAt_escape (cs : List Char) :
    splitAt '/' (NameToken.escape cs) = (splitAt '/' cs).map NameToken.escape := by
  induction cs with
  | nil => rfl
  | cons c cs ih =>
    obtain ⟨part, parts, hparts⟩ := List.exists_cons_of_ne_nil (splitAt_ne_nil '/' cs)
    rw [NameToken.escape_cons]
    by_cases hslash : c = '/'
    · subst hslash
      rw [if_neg (by decide), List.singleton_append, splitAt, if_pos rfl, ih, splitAt, if_pos rfl,
        List.map_cons]
      rfl
    · have hparts' : splitAt '/' (NameToken.escape cs) =
          NameToken.escape part :: parts.map NameToken.escape := by rw [ih, hparts, List.map_cons]
      by_cases hmark : NameToken.isMark c = true
      · simp [splitAt, hmark, hslash, hparts, hparts', NameToken.escape_cons]
      · simp [splitAt, hmark, hslash, hparts, hparts', NameToken.escape_cons]

namespace SegmentPattern

/-- The pattern of a segment that stands for itself. -/
def exact (segment : String) : SegmentPattern := .name (segment.toList.map .exact)

theorem read_escape (cs : List Char) :
    read (String.ofList (NameToken.escape cs)) = some (exact (String.ofList cs)) := by
  have hne : String.ofList (NameToken.escape cs) ≠ "**" := fun h =>
    NameToken.escape_ne_stars cs (by simpa using congrArg String.toList h)
  rw [read, if_neg hne, String.toList_ofList, NameToken.read_escape, exact, String.toList_ofList]
  rfl

theorem mapM_read_escape (cs : List Char) :
    (Path.segments (String.ofList (NameToken.escape cs))).mapM read =
      some ((Path.segments (String.ofList cs)).map exact) := by
  simp only [Path.segments, Text.split, String.toList_ofList, Text.splitAt_escape, List.map_map,
    List.mapM_map]
  generalize Text.splitAt '/' cs = parts
  induction parts with
  | nil => rfl
  | cons part parts ih =>
    rw [List.mapM_cons, ih]
    simp [read_escape]

/-- A pattern after a folder is read segment by segment. -/
theorem readAll_append_slash (folder pattern : String) :
    readAll (folder ++ "/" ++ pattern) = do
      let before ← (Path.segments folder).mapM read
      let after ← readAll pattern
      return before ++ after := by
  have hne : Path.segments pattern ≠ [] := by simp [Path.segments, Text.split]
  have hlast : (Path.segments folder ++ Path.segments pattern).getLast? =
      (Path.segments pattern).getLast? := by
    rw [List.getLast?_append, List.getLast?_eq_some_getLast hne]
    rfl
  unfold readAll
  rw [Path.segments_append_slash]
  dsimp only
  rw [hlast]
  split
  · rw [List.dropLast_append_of_ne_nil hne, List.mapM_append]
  · rw [List.mapM_append]

/-- A path and a pattern after it: the path stands for itself. -/
theorem readAll_escape_append {cs : List Char} {pattern : String}
    {segments : List SegmentPattern} (h : readAll pattern = some segments) :
    readAll (String.ofList (NameToken.escape cs) ++ "/" ++ pattern) =
      some ((Path.segments (String.ofList cs)).map exact ++ segments) := by
  rw [readAll_append_slash, mapM_read_escape, h]
  rfl

/-! ## §3 Where patterns lead -/

variable {d : Disk} {start spot : Spot}

theorem enter?_eq_some {segment : String} : start.enter? d segment = some spot ↔
    d.step start.place segment = .ok spot.place ∧ spot.segments = start.segments ++ [segment] := by
  unfold Spot.enter?
  obtain ⟨segments, place⟩ := spot
  cases d.step start.place segment with
  | error e => simp
  | ok place' =>
    simp only [Option.some.injEq, Spot.mk.injEq, Except.ok.injEq]
    exact ⟨fun ⟨hsegments, hplace⟩ => ⟨hplace, hsegments.symm⟩,
      fun ⟨hplace, hsegments⟩ => ⟨hsegments.symm, hplace⟩⟩

/-- A segment that stands for itself leads to where the segment leads. -/
theorem mem_matching_exact_iff {segment : String} :
    spot ∈ matching d (segment.toList.map .exact) start ↔ start.enter? d segment = some spot := by
  unfold matching
  cases hliteral : NameToken.literal? (segment.toList.map .exact) with
  | some cs =>
    obtain rfl := NameToken.eq_of_literal?_exact hliteral
    simp [Option.mem_toList]
  | none =>
    have hmatches (name : String) :
        NameToken.matchesAll (segment.toList.map .exact) name.toList = true ↔ name = segment := by
      rw [NameToken.matchesAll_exact, String.toList_inj]
    simp only [List.mem_filterMap, List.mem_filter, hmatches]
    constructor
    · rintro ⟨_, ⟨-, rfl⟩, henter⟩
      exact henter
    · intro henter
      -- What is escaped neither stays nor goes back, so there is an entry of that name.
      refine ⟨segment, ⟨List.mem_append_left _ ?_, rfl⟩, henter⟩
      obtain ⟨c, hc, hmark⟩ := NameToken.exists_isMark_of_literal?_exact hliteral
      have hname : segment ≠ "" ∧ segment ≠ "." ∧ segment ≠ ".." := by
        refine ⟨?_, ?_, ?_⟩ <;> rintro rfl <;> simp at hc <;> subst hc <;>
          exact absurd hmark (by decide)
      have hstep := (enter?_eq_some.1 henter).1
      rw [Disk.step] at hstep
      rw [Spot.tree]
      cases htree : d.root.at? start.place with
      | none => simp [htree] at hstep
      | some t =>
        cases t with
        | file contents => simp [htree] at hstep
        | folder entries =>
          simp only [htree, hname, or_self, if_false] at hstep
          split at hstep
          · next hentry =>
            obtain ⟨u, hu⟩ := Option.isSome_iff_exists.1 hentry
            exact mem_names_of_lookupEntry hu
          · cases hstep

/-- So do segments one after the other. -/
theorem mem_expand_exact_iff {names : List String} :
    spot ∈ expand d (names.map exact) start ↔
      d.walk start.place names = .ok spot.place ∧ spot.segments = start.segments ++ names := by
  induction names generalizing start with
  | nil =>
    obtain ⟨segments, place⟩ := spot
    obtain ⟨segments', place'⟩ := start
    simp [expand, Disk.walk, pure, Except.pure, and_comm, eq_comm]
  | cons name names ih =>
    have hwalk : d.walk start.place (name :: names) =
        d.step start.place name >>= fun place => d.walk place names := rfl
    rw [List.map_cons, exact, expand, List.mem_flatMap, hwalk]
    simp only [mem_matching_exact_iff, enter?_eq_some, ih]
    constructor
    · rintro ⟨next, ⟨hstep, hsegments⟩, hplace, hspot⟩
      rw [hstep, hspot, hsegments, List.append_assoc]
      exact ⟨hplace, rfl⟩
    · rintro ⟨hplace, hspot⟩
      obtain ⟨place, hstep, hrest⟩ := exists_of_bind_eq_ok hplace
      refine ⟨⟨start.segments ++ [name], place⟩, ⟨hstep, rfl⟩, hrest, ?_⟩
      rw [hspot, List.append_assoc]
      rfl

/-- What follows segments that stand for themselves leads on from where they lead. -/
theorem mem_expand_append_iff {names : List String} {rest : List SegmentPattern} :
    spot ∈ expand d (names.map exact ++ rest) start ↔ ∃ folder : Spot,
      d.walk start.place names = .ok folder.place ∧ folder.segments = start.segments ++ names ∧
        spot ∈ expand d rest folder := by
  have hexpand : expand d (names.map exact ++ rest) start =
      (expand d (names.map exact) start).flatMap (expand d rest) := by
    induction names generalizing start with
    | nil => simp [expand]
    | cons name names ih =>
      rw [List.map_cons, List.cons_append, exact, expand, expand, List.flatMap_assoc]
      exact congrArg (fun f => List.flatMap f (matching d _ start)) (funext fun _ => ih)
  rw [hexpand, List.mem_flatMap]
  simp only [mem_expand_exact_iff, and_assoc]

end SegmentPattern

end SqlWorkflow
