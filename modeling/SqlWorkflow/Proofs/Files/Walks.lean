import SqlWorkflow.Files.Disk
import SqlWorkflow.Outcome

/-!
# Walks on a disk

A path that is put after the path of a folder is followed from where the folder is
(`locate_append`), and a walk that does not go back depends only on the tree that it starts in
(`walk_eq_descend`).  So what such a path leads to is part of the folder.

- **§1** Paths that are put after folders.
- **§2** Trees.
- **§3** Disks.
-/

namespace SqlWorkflow

/-! ## §1 Paths -/

namespace Path

theorem segments_append_slash (a b : String) :
    segments (a ++ "/" ++ b) = segments a ++ segments b := by
  have hslash : (a ++ "/" ++ b).toList = a.toList ++ '/' :: b.toList := by
    simp [String.toList_append]
  rw [segments, Text.split, hslash, Text.splitAt_append_cons, List.map_append]
  rfl

/-- A folder with a separator at the end, and other folders. -/
theorem append_cases (folder relative : String) :
    (folder = "" ∧ append folder relative = relative) ∨
    (∃ shorter, folder = shorter ++ "/" ++ "" ∧
      append folder relative = shorter ++ "/" ++ relative) ∨
    (folder ≠ "" ∧ append folder relative = folder ++ "/" ++ relative) := by
  by_cases hempty : folder = ""
  · exact .inl ⟨hempty, by simp [append, hempty]⟩
  · by_cases hlast : folder.toList.getLast? = some '/'
    · obtain ⟨init, hinit⟩ := List.getLast?_eq_some_iff.1 hlast
      have hfolder : folder = String.ofList init ++ "/" := by
        rw [← String.ofList_toList (s := folder), hinit, String.ofList_append]
      refine .inr (.inl ⟨String.ofList init, by simpa using hfolder, ?_⟩)
      rw [append, if_pos (by simp [hlast]), hfolder]
    · exact .inr (.inr ⟨hempty, by simp [append, hempty, hlast]⟩)

end Path

/-! ## §2 Trees -/

namespace FileTree

theorem at?_append (names others : List String) (t : FileTree) :
    t.at? (names ++ others) = (t.at? names).bind (at? others) := by
  induction names generalizing t with
  | nil => rfl
  | cons name names ih =>
    rw [List.cons_append, at?, at?, Option.bind_assoc]
    exact Option.bind_congr fun t _ => ih t

/-- What names lead to in a tree, the first of them lead to a part that the others start from. -/
theorem at?_append_eq_some_iff {names others : List String} {t u : FileTree} :
    t.at? (names ++ others) = some u ↔
      ∃ part, t.at? names = some part ∧ part.at? others = some u := by
  rw [at?_append, Option.bind_eq_some_iff]

/-- The names that lead from the top of a tree to where some segments lead that do not go back. -/
def descend : List String → Option FileTree → Except AccessError (List String)
  | [], _ => .ok []
  | _ :: _, none => .error .missing
  | _ :: _, some (.file _) => .error .notFolder
  | segment :: rest, some (.folder entries) =>
    if Path.isProper segment then
      if (lookupEntry segment entries).isSome then
        (descend rest (lookupEntry segment entries)).map (segment :: ·)
      else .error .missing
    else descend rest (some (.folder entries))

/-- Where segments lead in a tree, they lead by their names. -/
theorem eq_of_descend_eq_ok {segments names : List String} {t? : Option FileTree}
    (h : descend segments t? = .ok names) : names = segments.filter Path.isProper := by
  fun_induction descend segments t? generalizing names with
  | case1 => cases h; rfl
  | case2 => cases h
  | case3 => cases h
  | case4 segment rest entries hproper _ ih =>
    obtain ⟨names, hnames, rfl⟩ := exists_of_map_eq_ok h
    rw [ih hnames, List.filter_cons_of_pos hproper]
  | case5 => cases h
  | case6 segment rest entries hproper ih =>
    rw [ih h, List.filter_cons_of_neg hproper]

/-- Names that lead to a part of a tree lead there as segments. -/
theorem descend_of_at? {names : List String} {t u : FileTree}
    (hnames : ∀ name ∈ names, Path.isProper name = true) (h : t.at? names = some u) :
    descend names (some t) = .ok names := by
  induction names generalizing t with
  | nil => rfl
  | cons name names ih =>
    obtain ⟨child, hchild, hrest⟩ := Option.bind_eq_some_iff.1 h
    cases t with
    | file contents => cases hchild
    | folder entries =>
      have hentry : lookupEntry name entries = some child := hchild
      rw [descend, if_pos (hnames name List.mem_cons_self), hentry, Option.isSome_some,
        if_pos rfl, ih (fun other hother => hnames other (List.mem_cons_of_mem _ hother)) hrest]
      rfl

end FileTree

/-! ## §3 Disks -/

namespace Disk

variable {d : Disk} {place : List String} {segments : List String}

/-- A walk that does not go back depends only on the tree that it starts in. -/
theorem walk_eq_descend (h : ".." ∉ segments) :
    d.walk place segments =
      (FileTree.descend segments (d.root.at? place)).map (place ++ ·) := by
  induction segments generalizing place with
  | nil => simp [walk, FileTree.descend, Except.map, pure, Except.pure]
  | cons segment rest ih =>
    rw [List.mem_cons, not_or] at h
    have hwalk : d.walk place (segment :: rest) =
        d.step place segment >>= fun place => d.walk place rest := rfl
    rw [hwalk, step]
    cases hplace : d.root.at? place with
    | none => rfl
    | some t =>
      cases t with
      | file contents => rfl
      | folder entries =>
        dsimp only
        by_cases hproper : Path.isProper segment = true
        · have hstay : ¬ (segment = "" ∨ segment = ".") := by
            simpa [Path.isProper] using hproper
          rw [if_neg hstay, if_neg (Ne.symm h.1), FileTree.descend, if_pos hproper]
          have hchild : d.root.at? (place ++ [segment]) = lookupEntry segment entries := by
            rw [FileTree.at?_append, hplace]
            change (lookupEntry segment entries).bind _ = _
            cases lookupEntry segment entries <;> rfl
          split
          · next hentry =>
            -- The rest of the walk starts in the entry.
            change d.walk (place ++ [segment]) rest = _
            rw [ih h.2, hchild]
            cases FileTree.descend rest (lookupEntry segment entries) with
            | error e => rfl
            | ok names =>
              change Except.ok (place ++ [segment] ++ names) = Except.ok (place ++ segment :: names)
              rw [List.append_assoc, List.singleton_append]
          · rfl
        · -- The segment leads nowhere else.
          have hstay : segment = "" ∨ segment = "." := by
            simpa [Path.isProper, Decidable.or_iff_not_imp_left] using hproper
          rw [if_pos hstay, FileTree.descend, if_neg hproper]
          change d.walk place rest = _
          rw [ih h.2, hplace]

theorem walk_append (place : List String) (first second : List String) :
    d.walk place (first ++ second) = d.walk place first >>= fun place => d.walk place second :=
  List.foldlM_append

/-- Where a path starts is told by its first segment. -/
theorem exists_start_eq (d : Disk) {front : List String} (hne : front ≠ []) :
    ∃ origin init, ∀ path rest, Path.segments path = front ++ rest →
      d.start path = (origin, init ++ rest) := by
  obtain ⟨first, front, rfl⟩ := List.exists_cons_of_ne_nil hne
  -- Paths with an empty first segment start at the root, others in the working folder.
  by_cases hfirst : first = ""
  · refine ⟨[], front, fun path rest hsegments => ?_⟩
    rw [start, hsegments, hfirst]
    rfl
  · refine ⟨d.workingFolder, first :: front, fun path rest hsegments => ?_⟩
    rw [start, hsegments]
    split
    · next segments heq =>
      cases heq
      exact absurd rfl hfirst
    · rfl

/-- Empty segments stay where they are. -/
theorem walk_here {place' : List String} {count : Nat}
    (h : d.walk place (List.replicate count "") = .ok place') : place' = place := by
  induction count generalizing place with
  | zero => exact (Except.ok.inj h).symm
  | succ count ih =>
    obtain ⟨here, hstep, hrest⟩ := exists_of_bind_eq_ok h
    rw [ih hrest]
    unfold step at hstep
    split at hstep
    · cases hstep
    · cases hstep
    · rw [if_pos (.inl rfl)] at hstep
      exact (Except.ok.inj hstep).symm

/-- Behind a folder they can be followed. -/
theorem walk_append_here_iff {entries : List (String × FileTree)} {place' : List String}
    (h : d.root.at? place' = some (.folder entries)) (count : Nat) :
    d.walk place (segments ++ List.replicate count "") = .ok place' ↔
      d.walk place segments = .ok place' := by
  have hstep : d.step place' "" = .ok place' := by
    rw [step, h]
    exact if_pos (.inl rfl)
  have hstay : d.walk place' (List.replicate count "") = .ok place' := by
    induction count with
    | zero => rfl
    | succ count ih =>
      rw [List.replicate_succ, walk, List.foldlM_cons, hstep]
      exact ih
  rw [walk_append]
  constructor
  · intro hwalk
    obtain ⟨here, hhere, hrest⟩ := exists_of_bind_eq_ok hwalk
    rw [hhere, walk_here hrest]
  · intro hwalk
    rw [hwalk]
    exact hstay

theorem start_fst (d : Disk) (path : String) :
    (d.start path).1 = if (Path.segments path).head? = some "" then [] else d.workingFolder := by
  rw [start]
  split
  · next h => rw [h, List.head?_cons, if_pos rfl]
  · next h =>
    rw [if_neg]
    intro hhead
    obtain ⟨rest, hrest⟩ := List.head?_eq_some_iff.1 hhead
    exact h rest hrest

theorem walk_start_append {folder relative : String} (h : d.locate folder = .ok place) :
    d.walk (d.start (Path.append folder relative)).1 (d.start (Path.append folder relative)).2 =
      d.walk place (Path.segments relative) := by
  have hne : ∀ path, Path.segments path ≠ [] := by simp [Path.segments, Text.split]
  unfold locate at h
  split at h
  · cases h
  · next hempty =>
    split at h
    · cases h
    · obtain ⟨rfl, -⟩ | ⟨shorter, rfl, happend⟩ | ⟨-, happend⟩ := Path.append_cases folder relative
      · exact absurd rfl hempty
      · -- The separator at the end of the folder leads nowhere else.
        obtain ⟨origin, init, hstart⟩ := d.exists_start_eq (hne shorter)
        rw [hstart _ _ (Path.segments_append_slash shorter ""), walk_append] at h
        obtain ⟨place', hplace', hlast⟩ := exists_of_bind_eq_ok h
        have hhere : d.walk place' (List.replicate 1 "") = .ok place := hlast
        rw [happend, hstart _ _ (Path.segments_append_slash shorter relative), walk_append,
          hplace', walk_here hhere]
        rfl
      · obtain ⟨origin, init, hstart⟩ := d.exists_start_eq (hne folder)
        rw [hstart folder [] (List.append_nil _).symm, List.append_nil] at h
        rw [happend, hstart _ _ (Path.segments_append_slash folder relative), walk_append]
        change d.walk origin init = _ at h
        rw [h]
        rfl

/-- A path that is put after a folder is followed from where the folder is. -/
theorem locate_append {folder relative : String} (h : d.locate folder = .ok place) :
    d.locate (Path.append folder relative) =
      if '\x00' ∈ relative.toList then .error .badPath
      else d.walk place (Path.segments relative) := by
  have hwalk : d.walk (d.start (Path.append folder relative)).1
      (d.start (Path.append folder relative)).2 = d.walk place (Path.segments relative) :=
    walk_start_append h
  -- A folder is found only by a path that is not empty and holds no NUL.
  have hempty : folder ≠ "" := by
    rintro rfl
    cases h
  have hnul : '\x00' ∉ folder.toList := by
    intro hnul
    rw [locate, if_neg (by simpa using hempty), if_pos (by simpa using hnul)] at h
    cases h
  have happendEmpty : (Path.append folder relative).isEmpty = false := by
    unfold Path.append
    split <;> simp_all
  have happendNul : (Path.append folder relative).toList.contains '\x00' =
      relative.toList.contains '\x00' := by
    unfold Path.append
    split <;> simp_all
  rw [locate, happendEmpty, happendNul, hwalk]
  simp

/-- What there is below a folder is told by what the folder holds. -/
theorem find_append_congr {d' : Disk} {folder relative : String} {place' : List String}
    (h : d.locate folder = .ok place) (h' : d'.locate folder = .ok place')
    (htree : d'.root.at? place' = d.root.at? place) (hback : ".." ∉ Path.segments relative) :
    d'.find (Path.append folder relative) = d.find (Path.append folder relative) := by
  rw [find, find, locate_append h, locate_append h']
  split
  · rfl
  · rw [walk_eq_descend hback, walk_eq_descend hback, htree]
    cases FileTree.descend (Path.segments relative) (d.root.at? place) with
    | error e => rfl
    | ok names =>
      dsimp only [Except.map, bind, Except.bind]
      rw [FileTree.at?_append, FileTree.at?_append, htree]

end Disk

end SqlWorkflow
