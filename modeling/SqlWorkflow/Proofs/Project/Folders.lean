import SqlWorkflow.Project.Index
import SqlWorkflow.Proofs.Files.Patterns

/-!
# The folder of a project in patterns and paths

Files are looked for from the root of the disk on, in a folder that is named as the project's path
is, but for `\` and for separators at its end.  What is found there is listed by what is left of
its path after the path of the project (`relativePath_eq`), if that path is spelled as found paths
are (`Path.IsPlain`).

- **§1** The segments of the folder.
- **§2** Where they lead.
- **§3** Paths in the folder.
-/

namespace SqlWorkflow

/-! ## §1 The segments of the folder -/

/-- Is the path of a folder spelled as the paths of what is found in it?  These have `/` between all
segments and do not start with `.`. -/
structure Path.IsPlain (path : String) : Prop where
  notEmpty : path ≠ ""
  slashes : '\\' ∉ path.toList
  start : (Path.segments path).head? ≠ some "."

namespace Path

/-- A path from the root on is, but for `\`. -/
theorem isPlain_pathOf {place : List String} (h : '\\' ∉ (Disk.pathOf place).toList) :
    IsPlain (Disk.pathOf place) where
  notEmpty hempty := by simp [Disk.pathOf] at hempty
  slashes := h
  start := by
    have hsegments : segments (Disk.pathOf place) = "" :: segments (Text.join "/" place) := by
      rw [segments, Text.split, Disk.pathOf, String.toList_append]
      rfl
    simp [hsegments]

/-- Separators at the end of a text start empty segments. -/
theorem splitAt_append_replicate (cs : List Char) (count : Nat) :
    Text.splitAt '/' (cs ++ List.replicate count '/') =
      Text.splitAt '/' cs ++ List.replicate count [] := by
  have hslashes : Text.splitAt '/' (List.replicate count '/') = List.replicate (count + 1) [] := by
    induction count with
    | zero => rfl
    | succ count ih =>
      rw [List.replicate_succ, Text.splitAt, if_pos rfl, ih]
      rfl
  cases count with
  | zero => simp
  | succ count =>
    rw [List.replicate_succ, Text.splitAt_append_cons]
    refine congrArg _ ?_
    rw [List.replicate_succ, Text.splitAt, if_pos rfl] at hslashes
    exact List.tail_eq_of_cons_eq hslashes

theorem exists_eq_trimEnd_append (cs : List Char) :
    ∃ count, cs = Text.trimEnd (· == '/') cs ++ List.replicate count '/' := by
  refine ⟨(cs.reverse.takeWhile (· == '/')).length, ?_⟩
  have hall : cs.reverse.takeWhile (· == '/') =
      List.replicate (cs.reverse.takeWhile (· == '/')).length '/' :=
    List.eq_replicate_iff.2 ⟨rfl, fun c hc => by
      simpa using List.all_eq_true.1 List.all_takeWhile c hc⟩
  have hreverse := congrArg List.reverse (List.takeWhile_append_dropWhile (p := (· == '/'))
    (l := cs.reverse))
  rw [List.reverse_append, List.reverse_reverse] at hreverse
  rw [Text.trimEnd]
  conv => lhs; rw [← hreverse]
  rw [hall]
  simp

end Path

namespace ProjectFolder

variable {p : ProjectFolder} {spot : Spot} {folder : String} {names : List String}

/-- The path of the folder has the segments of the folder that is searched, and then separators. -/
theorem exists_segments_path (hpath : Path.IsPlain p.path) : ∃ first inner count,
    Path.segments p.searchedFolder = first :: inner ∧
      Path.segments p.path = first :: (inner ++ List.replicate count "") ∧
      Path.components p.path = first :: inner.filter Path.isProper ∧ first ≠ "." := by
  obtain ⟨count, hcount⟩ := Path.exists_eq_trimEnd_append p.path.toList
  have hfolder : Path.segments p.searchedFolder =
      (Text.splitAt '/' (Text.trimEnd (· == '/') p.path.toList)).map String.ofList := by
    rw [searchedFolder, Path.normalize, Text.replaceChar_of_not_mem hpath.slashes,
      String.toList_ofList, Path.segments, Text.split, String.toList_ofList]
  have hsegments : Path.segments p.path =
      Path.segments p.searchedFolder ++ List.replicate count "" := by
    rw [hfolder, Path.segments, Text.split]
    conv => lhs; rw [hcount]
    rw [Path.splitAt_append_replicate, List.map_append, List.map_replicate]
  obtain ⟨first, inner, hfirst⟩ : ∃ first inner,
      Path.segments p.searchedFolder = first :: inner :=
    List.exists_cons_of_ne_nil (by simp [Path.segments, Text.split])
  rw [hfirst, List.cons_append] at hsegments
  have hfilter : (inner ++ List.replicate count "").filter Path.isProper =
      inner.filter Path.isProper := by
    simp [List.filter_append, Path.isProper]
  refine ⟨first, inner, count, hfirst, hsegments, ?_, fun hdot => ?_⟩
  · rw [Path.components, hsegments]
    split
    · next h => cases h
    · next h =>
      -- Only the empty path has one empty segment and no other.
      refine absurd ?_ hpath.notEmpty
      have hempty : Path.segments p.path = [""] := hsegments.trans h
      obtain ⟨part, hpart, hname⟩ := List.map_eq_singleton_iff.1 hempty
      have hjoin := Text.joinAt_splitAt '/' p.path.toList
      rw [hpart] at hjoin
      rw [← String.ofList_toList (s := p.path), ← hjoin]
      exact hname
    · next h =>
      cases h
      rw [hfilter]
  · exact hpath.start (by rw [hsegments, hdot]; rfl)

/-! ## §2 Where they lead -/

/-- A pattern is followed from where the path of the searched folder is. -/
theorem start_fullPattern (p : ProjectFolder) (pattern : String) :
    (p.disk.start (p.fullPattern pattern)).1 =
      if (Path.segments p.searchedFolder).head? = some "" then [] else p.disk.workingFolder := by
  rw [Disk.start_fst]
  obtain ⟨part, parts, hparts⟩ :=
    List.exists_cons_of_ne_nil (Text.splitAt_ne_nil '/' p.searchedFolder.toList)
  have hfull : (Path.segments (p.fullPattern pattern)).head? =
      some (String.ofList (NameToken.escape part)) := by
    rw [fullPattern, Path.segments_append_slash, Path.segments, Text.split, String.toList_ofList,
      Text.splitAt_escape, hparts]
    rfl
  have hsearched : (Path.segments p.searchedFolder).head? = some (String.ofList part) := by
    rw [Path.segments, Text.split, hparts]
    rfl
  -- Escaping leaves nothing out.
  have hempty : String.ofList (NameToken.escape part) = "" ↔ String.ofList part = "" := by
    cases part with
    | nil => rfl
    | cons c cs =>
      rw [NameToken.escape_cons]
      split <;> simp
  rw [hfull, hsearched]
  simp only [Option.some.injEq, hempty]

/-- The path of a folder and the path of the searched folder lead to the same place. -/
theorem locate_eq_ok_iff (pattern : String) {place : List String}
    {entries : List (String × FileTree)} (hpath : Path.IsPlain p.path)
    (hnul : '\x00' ∉ p.path.toList) (hfolder : p.disk.root.at? place = some (.folder entries)) :
    p.disk.locate p.path = .ok place ↔
      p.disk.walk (p.disk.start (p.fullPattern pattern)).1 (Path.segments p.searchedFolder) =
        .ok place := by
  obtain ⟨first, inner, count, hsearched, hsegments, -, -⟩ := exists_segments_path hpath
  have hempty : p.path.isEmpty = false := by simpa using hpath.notEmpty
  rw [Disk.locate, hempty, if_neg Bool.false_ne_true, if_neg (by simpa using hnul),
    start_fullPattern, hsearched, List.head?_cons]
  by_cases hfirst : first = ""
  · -- The root is a folder, so that the first segment stays there.
    have hstart : p.disk.start p.path = ([], inner ++ List.replicate count "") := by
      rw [Disk.start, hsegments, hfirst]
      rfl
    have hroot : p.disk.step [] "" = .ok [] := by
      rw [Disk.step]
      cases hroot : p.disk.root with
      | folder entries => rfl
      | file contents =>
        rw [hroot] at hfolder
        cases place <;> cases hfolder
    rw [hstart, Disk.walk_append_here_iff hfolder, if_pos (congrArg some hfirst), hfirst]
    have hwalk : p.disk.walk [] ("" :: inner) =
        p.disk.step [] "" >>= fun place => p.disk.walk place inner := rfl
    rw [hwalk, hroot]
    rfl
  · have hstart : p.disk.start p.path =
        (p.disk.workingFolder, (first :: inner) ++ List.replicate count "") := by
      rw [Disk.start, hsegments]
      split
      · next h => exact absurd (List.cons.inj h).1 hfirst
      · rfl
    rw [hstart, Disk.walk_append_here_iff hfolder, if_neg (by simpa using hfirst)]

/-! ## §3 Paths in the folder -/

/-- The spots in the searched folder to which a pattern leads. -/
def spotsOf (p : ProjectFolder) (pattern : String) (segments : List SegmentPattern) : List Spot :=
  SegmentPattern.expand p.disk
    ((Path.segments p.searchedFolder).map SegmentPattern.exact ++ segments)
    { segments := [], place := (p.disk.start (p.fullPattern pattern)).1 }

/-- A pattern that can be read finds the files at these spots. -/
theorem filesMatching_eq_ok {pattern : String} {segments : List SegmentPattern}
    (hread : SegmentPattern.readAll pattern = some segments) :
    p.filesMatching pattern = .ok (if isForFolders pattern then [] else
      ((p.spotsOf pattern segments).filter fun spot => (spot.tree p.disk).isFile).map
        p.relativePath) := by
  have hfull : SegmentPattern.readAll (p.fullPattern pattern) =
      some ((Path.segments p.searchedFolder).map SegmentPattern.exact ++ segments) := by
    rw [fullPattern, SegmentPattern.readAll_escape_append hread, String.ofList_toList]
  unfold filesMatching spotsOf
  dsimp only
  rw [hfull]
  dsimp only
  split
  · rfl
  · rfl

/-- They lead from the searched folder on. -/
theorem mem_spotsOf_iff {pattern : String} {segments : List SegmentPattern} :
    spot ∈ p.spotsOf pattern segments ↔ ∃ start : Spot,
      p.disk.walk (p.disk.start (p.fullPattern pattern)).1 (Path.segments p.searchedFolder) =
        .ok start.place ∧ start.segments = Path.segments p.searchedFolder ∧
      spot ∈ SegmentPattern.expand p.disk segments start := by
  rw [spotsOf, SegmentPattern.mem_expand_append_iff]
  simp only [List.nil_append]

/-- What a path has in common with a folder is left out. -/
theorem after?_append (inner path : List String) :
    Path.after? (inner.filter Path.isProper) ((inner ++ path).filter (· != "")) =
      Path.after? [] (path.filter (· != "")) := by
  induction inner with
  | nil => rfl
  | cons segment inner ih =>
    by_cases hempty : segment = ""
    · simpa [hempty, Path.isProper] using ih
    · by_cases hdot : segment = "."
      · -- The path may stay where it is while the folder does not.
        have hfilter : (segment :: inner).filter Path.isProper = inner.filter Path.isProper := by
          simp [hdot, Path.isProper]
        have hpath : ((segment :: inner) ++ path).filter (· != "") =
            "." :: (inner ++ path).filter (· != "") := by
          simp [hdot]
        rw [hfilter, hpath, ← ih]
        cases hparts : inner.filter Path.isProper with
        | nil =>
          rw [Path.after?, Path.after?, List.dropWhile_cons_of_pos (by decide)]
        | cons part parts =>
          have hproper : Path.isProper part = true :=
            (List.mem_filter.1 (hparts ▸ List.mem_cons_self)).2
          have hne : "." ≠ part := by
            rintro rfl
            exact absurd hproper (by decide)
          rw [Path.after?, if_neg hne, if_pos rfl]
      · have hfilter : (segment :: inner).filter Path.isProper =
            segment :: inner.filter Path.isProper :=
          List.filter_cons_of_pos (by simp [Path.isProper, hempty, hdot])
        have hpath : ((segment :: inner) ++ path).filter (· != "") =
            segment :: (inner ++ path).filter (· != "") :=
          List.filter_cons_of_pos (by simpa using hempty)
        rw [hfilter, hpath, ← ih, Path.after?, if_pos rfl]

/-- A spot in the searched folder is listed by what leads there from the folder. -/
theorem relativePath_eq (hpath : Path.IsPlain p.path)
    (hspot : spot.segments = Path.segments p.searchedFolder ++ folder :: names)
    (hfolder : (folder == "" || folder == ".") = false) :
    p.relativePath spot = String.ofList (withoutHere (Path.normalize
      (Text.join "/" (folder :: names.filter (· != "")))).toList) := by
  obtain ⟨first, inner, -, hsearched, -, hcomponents, hdot⟩ := exists_segments_path hpath
  rw [hsearched, List.cons_append] at hspot
  simp only [Bool.or_eq_false_iff, beq_eq_false_iff_ne] at hfolder
  have hall : (folder :: names).filter (· != "") = folder :: names.filter (· != "") := by
    simp [hfolder]
  have hto : pathTo spot = first :: (inner ++ folder :: names).filter (· != "") := by
    rw [pathTo, hspot]
    split
    · next h =>
      cases h
      rfl
    · next hempty =>
      have hne : first ≠ "" := by
        rintro rfl
        exact hempty _ rfl
      simp [hdot, hne]
  have hafter : Path.after? (Path.components p.path) (pathTo spot) =
      some (folder :: names.filter (· != "")) := by
    rw [hcomponents, hto, Path.after?, if_pos rfl, after?_append, hall, Path.after?]
    simp [hfolder]
  rw [relativePath, hafter]
  rfl

end ProjectFolder

end SqlWorkflow
