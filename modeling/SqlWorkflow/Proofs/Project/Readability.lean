import SqlWorkflow.Proofs.Project.Confinement
import SqlWorkflow.Proofs.Project.Discovery
import SqlWorkflow.Proofs.Target.Spelling

/-!
# Reading the files that were discovered

A discovery finds files on the disk but lists them as texts: the names on the way to a file, with
separators between them and with `\` read as a separator too (`mem_flatMap_filesOf_iff`).  A file is
read by that text later on, and a text with `:` is refused.  So the text leads back to the file if
and only if no name on the way holds `\` or `:` (`denotes_ofNames_iff`), and then the file is read
as it is (`discovered_readable`).

- **§1** Names in trees.
- **§2** Paths of names.
- **§3** Where patterns lead.
- **§4** Discovered files.
- **§5** Reading.
-/

namespace SqlWorkflow

/-! ## §1 Names in trees -/

namespace FileTree

/-- May a file or a folder have the name? -/
def IsName (name : String) : Prop :=
  name ≠ "" ∧ name ≠ "." ∧ name ≠ ".." ∧ '/' ∉ name.toList ∧ '\x00' ∉ name.toList

instance (name : String) : Decidable (IsName name) := inferInstanceAs (Decidable (_ ∧ _))

/-- Everything in the tree has a name that it may have. -/
def Named (t : FileTree) : Prop := ∀ part ∈ t.inside, ∀ name ∈ part.1, IsName name

instance (t : FileTree) : Decidable t.Named :=
  inferInstanceAs (Decidable (∀ part ∈ t.inside, ∀ name ∈ part.1, IsName name))

theorem IsName.isProper {name : String} (h : IsName name) : Path.isProper name = true := by
  simp [Path.isProper, h.1, h.2.1]

variable {name : String} {names : List String} {entries : List (String × FileTree)}
  {t u : FileTree}

theorem insideEntries_cons (name : String) (t : FileTree) (rest : List (String × FileTree)) :
    insideEntries ((name, t) :: rest) =
      ([name], t) :: (t.inside.map (fun (names, inner) => (name :: names, inner)) ++
        insideEntries rest) := by
  rw [insideEntries, List.cons_append]

/-- An entry of a folder is inside of it, and so is everything inside of the entry. -/
theorem mem_insideEntries_of_lookupEntry (h : lookupEntry name entries = some t) :
    ([name], t) ∈ insideEntries entries ∧
      ∀ names u, (names, u) ∈ t.inside → (name :: names, u) ∈ insideEntries entries := by
  induction entries with
  | nil => cases h
  | cons entry rest ih =>
    obtain ⟨other, first⟩ := entry
    rw [lookupEntry] at h
    rw [insideEntries_cons]
    split at h
    · next heq =>
      cases h
      cases heq
      refine ⟨List.mem_cons_self, fun names u hu => List.mem_cons_of_mem _ ?_⟩
      exact List.mem_append_left _ (List.mem_map.2 ⟨(names, u), hu, rfl⟩)
    · obtain ⟨hhere, hbelow⟩ := ih h
      refine ⟨List.mem_cons_of_mem _ (List.mem_append_right _ hhere), fun names u hu => ?_⟩
      exact List.mem_cons_of_mem _ (List.mem_append_right _ (hbelow names u hu))

theorem mem_inside_of_at? (hne : names ≠ []) (h : t.at? names = some u) :
    (names, u) ∈ t.inside := by
  induction names generalizing t with
  | nil => exact absurd rfl hne
  | cons name names ih =>
    obtain ⟨child, hchild, hrest⟩ := Option.bind_eq_some_iff.1 h
    cases t with
    | file contents => cases hchild
    | folder entries =>
      obtain ⟨hhere, hbelow⟩ := mem_insideEntries_of_lookupEntry hchild
      rw [inside]
      cases names with
      | nil =>
        cases hrest
        exact hhere
      | cons second names => exact hbelow _ _ (ih (List.cons_ne_nil second names) hrest)

/-- Where names lead in such a tree, they are names that may be had. -/
theorem Named.isName (h : t.Named) (hat : t.at? names = some u) : ∀ name ∈ names, IsName name := by
  cases names with
  | nil => simp
  | cons name names => exact h _ (mem_inside_of_at? (List.cons_ne_nil name names) hat)

end FileTree

namespace Disk

variable {d : Disk} {place place' segments : List String}

/-- What is followed on a disk with such names holds no NUL. -/
theorem nul_not_mem_of_walk (hnames : d.root.Named) (h : d.walk place segments = .ok place') :
    ∀ segment ∈ segments, '\x00' ∉ segment.toList := by
  induction segments generalizing place with
  | nil => exact nofun
  | cons segment segments ih =>
    obtain ⟨next, hstep, hrest⟩ := exists_of_bind_eq_ok h
    rintro _ (_ | ⟨_, hmem⟩)
    · rw [step] at hstep
      split at hstep
      · cases hstep
      · cases hstep
      · next entries hat =>
        by_cases hstay : segment = "" ∨ segment = "."
        · rcases hstay with rfl | rfl <;> decide
        · by_cases hback : segment = ".."
          · rw [hback]
            decide
          · rw [if_neg hstay, if_neg hback] at hstep
            split at hstep
            · next hentry =>
              obtain ⟨child, hchild⟩ := Option.isSome_iff_exists.1 hentry
              have hat : d.root.at? (place ++ [segment]) = some child :=
                FileTree.at?_append_eq_some_iff.2 ⟨.folder entries, hat, by
                  simp [FileTree.at?, FileTree.child?, FileTree.entries, hchild]⟩
              exact (hnames.isName hat segment (by simp)).2.2.2.2
            · cases hstep
    · exact ih hrest _ hmem

theorem nul_not_mem_of_locate {path : String} (h : d.locate path = .ok place) :
    '\x00' ∉ path.toList := by
  intro hnul
  unfold locate at h
  split at h
  · cases h
  · rw [if_pos (by simpa using hnul)] at h
    cases h

end Disk

/-! ## §2 Paths of names -/

namespace Text

theorem toList_join_slash (parts : List String) :
    (join "/" parts).toList = joinAt '/' (parts.map String.toList) := by
  have hjoin := join_map_ofList '/' (parts.map String.toList)
  have hparts : (parts.map String.toList).map String.ofList = parts := by simp
  rw [hparts] at hjoin
  rw [← String.toList_ofList (l := joinAt '/' (parts.map String.toList)), ← hjoin]
  rfl

/-- What joined texts hold is the separator or stands in one of them. -/
theorem mem_of_mem_join_slash {c : Char} {parts : List String}
    (h : c ∈ (join "/" parts).toList) : c = '/' ∨ ∃ part ∈ parts, c ∈ part.toList := by
  rw [toList_join_slash] at h
  obtain heq | ⟨cs, hcs, hmem⟩ := mem_of_mem_joinAt h
  · exact .inl heq
  · obtain ⟨part, hpart, rfl⟩ := List.mem_map.1 hcs
    exact .inr ⟨part, hpart, hmem⟩

end Text

namespace Path

variable {name path : String} {names : List String}

/-- The path that is listed for the file to which some names lead. -/
def ofNames (names : List String) : String := normalize (Text.join "/" names)

theorem backslash_not_mem_normalize (path : String) : '\\' ∉ (normalize path).toList := by
  rw [normalize, String.toList_ofList]
  exact Text.not_mem_replaceChar (by decide)

theorem normalize_ofNames (names : List String) : normalize (ofNames names) = ofNames names := by
  have hback : '\\' ∉ (ofNames names).toList := backslash_not_mem_normalize _
  rw [normalize, Text.replaceChar_of_not_mem hback, String.ofList_toList]

/-- What a segment holds, the path holds. -/
theorem mem_of_mem_segments {c : Char} {segment : String} (hsegment : segment ∈ segments path)
    (hc : c ∈ segment.toList) : c ∈ path.toList := by
  obtain ⟨part, hpart, rfl⟩ := List.mem_map.1 hsegment
  rw [String.toList_ofList] at hc
  rw [← Text.joinAt_splitAt '/' path.toList]
  exact Text.mem_joinAt hpart hc

/-- What the path holds, one of its segments holds, but for separators. -/
theorem exists_segment_of_mem {c : Char} (hc : c ∈ path.toList) (hne : c ≠ '/') :
    ∃ segment ∈ segments path, c ∈ segment.toList := by
  rw [← Text.joinAt_splitAt '/' path.toList] at hc
  obtain ⟨part, hpart, hmem⟩ := (Text.mem_of_mem_joinAt hc).resolve_left hne
  exact ⟨String.ofList part, List.mem_map_of_mem hpart, by rwa [String.toList_ofList]⟩

/-- A path that starts at the root has nothing before its first separator. -/
theorem mem_segments_of_isAbsolute (h : IsAbsolute path) : "" ∈ segments path := by
  obtain ⟨rest, hrest⟩ := List.head?_eq_some_iff.1 h
  rw [segments, Text.split, hrest, Text.splitAt, if_pos rfl]
  exact List.mem_cons_self

/-- The path holds every character of the names but `\`. -/
theorem mem_ofNames {c : Char} (hname : name ∈ names) (hc : c ∈ name.toList) (hne : c ≠ '\\') :
    c ∈ (ofNames names).toList := by
  rw [ofNames, normalize, String.toList_ofList]
  refine Text.mem_replaceChar_of_ne hne ?_
  rw [Text.toList_join_slash]
  exact Text.mem_joinAt (List.mem_map_of_mem hname) hc

/-- The path starts with the first name. -/
theorem exists_toList_ofNames_cons (hname : '\\' ∉ name.toList) (names : List String) :
    ∃ rest, (ofNames (name :: names)).toList = name.toList ++ rest := by
  obtain ⟨rest, hrest⟩ : ∃ rest, (Text.join "/" (name :: names)).toList = name.toList ++ rest := by
    rw [Text.toList_join_slash]
    cases names with
    | nil => exact ⟨[], (List.append_nil _).symm⟩
    | cons second names => exact ⟨_, rfl⟩
  refine ⟨Text.replaceChar '\\' ['/'] rest, ?_⟩
  rw [ofNames, normalize, String.toList_ofList, hrest, Text.replaceChar_append,
    Text.replaceChar_of_not_mem hname]

section

variable (hback : ∀ name ∈ names, '\\' ∉ name.toList)

include hback

theorem ofNames_eq_join : ofNames names = Text.join "/" names := by
  have hjoin : '\\' ∉ (Text.join "/" names).toList := by
    intro hmem
    obtain heq | ⟨name, hname, hmem⟩ := Text.mem_of_mem_join_slash hmem
    · exact absurd heq (by decide)
    · exact hback name hname hmem
  rw [ofNames, normalize, Text.replaceChar_of_not_mem hjoin, String.ofList_toList]

/-- The segments of a path that is made of names are these names. -/
theorem segments_ofNames (hne : names ≠ []) (hslash : ∀ name ∈ names, '/' ∉ name.toList) :
    segments (ofNames names) = names := by
  rw [ofNames_eq_join hback]
  exact Text.split_join hne hslash

theorem mem_of_mem_ofNames {c : Char} (hc : c ∈ (ofNames names).toList) (hne : c ≠ '/') :
    ∃ name ∈ names, c ∈ name.toList := by
  rw [ofNames_eq_join hback] at hc
  exact (Text.mem_of_mem_join_slash hc).resolve_left hne

end

end Path

/-! ## §3 Where patterns lead -/

namespace NameToken

/-- A star and characters that stand for themselves match the names that end in them. -/
theorem matchesAll_star_iff {s cs : List Char} :
    matchesAll (.anyChars :: s.map .char) cs = true ↔ s <:+ cs := by
  refine ⟨isSuffix_of_matchesAll, fun h => ?_⟩
  induction cs with
  | nil => rw [matchesAll, matchesAll_literal, List.suffix_nil.1 h]
  | cons c cs ih =>
    rw [matchesAll, Bool.or_eq_true, matchesAll_literal]
    exact (List.suffix_cons_iff.1 h).imp Eq.symm ih

end NameToken

/-- The spot to which some names lead from another one. -/
def Spot.below (spot : Spot) (names : List String) : Spot :=
  { segments := spot.segments ++ names, place := spot.place ++ names }

/-- The segments that do not lead to something inside of a folder. -/
def specialSegments : List String := ["", ".", ".."]

namespace SegmentPattern

variable {d : Disk} {start spot : Spot} {name folder : String} {ending : List Char} {t : FileTree}

theorem enter?_eq_some_iff (hname : name ∉ specialSegments) :
    start.enter? d name = some spot ↔
      (d.root.at? (start.place ++ [name])).isSome = true ∧ spot = start.below [name] := by
  simp only [specialSegments, List.mem_cons, List.not_mem_nil, or_false, not_or] at hname
  rw [Spot.enter?, Disk.step, FileTree.at?_append]
  cases d.root.at? start.place with
  | none => simp
  | some t =>
    cases t with
    | file contents => simp [FileTree.at?, FileTree.child?, FileTree.entries, lookupEntry]
    | folder entries =>
      dsimp only
      -- The name neither stays nor goes back, so there is an entry of that name or nothing.
      rw [if_neg (by simp [hname]), if_neg hname.2.2]
      cases hentry : lookupEntry name entries <;>
        simp [FileTree.at?, FileTree.child?, FileTree.entries, hentry, Spot.below, eq_comm]

/-- A name leads to what has the name. -/
theorem mem_matching_iff (hname : name ∉ specialSegments) :
    spot ∈ matching d (name.toList.map .char) start ↔
      (d.root.at? (start.place ++ [name])).isSome = true ∧ spot = start.below [name] := by
  rw [matching, NameToken.literal?_map_char, Option.mem_toList, String.ofList_toList]
  exact enter?_eq_some_iff hname

/-- Names with more than two characters are none of the special segments. -/
theorem not_mem_specialSegments (hending : 2 < ending.length) (h : ending <:+ name.toList) :
    name ∉ specialSegments := by
  intro hname
  have hshort : ∀ special ∈ specialSegments, special.toList.length ≤ 2 := by decide
  have hlength := h.length_le
  have hmost := hshort name hname
  omega

/-- A star and an ending lead to what has a name that ends so. -/
theorem mem_matching_star_iff (hending : 2 < ending.length) :
    spot ∈ matching d (.anyChars :: ending.map .char) start ↔ ∃ last : String,
      ending <:+ last.toList ∧ (d.root.at? (start.place ++ [last])).isSome = true ∧
        spot = start.below [last] := by
  simp only [matching, NameToken.literal?, List.mem_filterMap, List.mem_filter,
    NameToken.matchesAll_star_iff]
  constructor
  · rintro ⟨last, ⟨-, hsuffix⟩, henter⟩
    exact ⟨last, hsuffix, (enter?_eq_some_iff (not_mem_specialSegments hending hsuffix)).1 henter⟩
  · rintro ⟨last, hsuffix, hat, hspot⟩
    refine ⟨last, ⟨List.mem_append_left _ ?_, hsuffix⟩,
      (enter?_eq_some_iff (not_mem_specialSegments hending hsuffix)).2 ⟨hat, hspot⟩⟩
    obtain ⟨u, hu⟩ := Option.isSome_iff_exists.1 hat
    obtain ⟨t, ht, hlast⟩ := FileTree.at?_append_eq_some_iff.1 hu
    obtain ⟨child, hchild, -⟩ := Option.bind_eq_some_iff.1 hlast
    rw [Spot.tree, ht]
    exact mem_names_of_lookupEntry hchild

theorem exists_of_mem_matchingBelow (hending : ending ≠ [])
    (h : spot ∈ matchingBelow d (.anyChars :: ending.map .char) start) : ∃ middle, ∃ last : String,
      ending <:+ last.toList ∧ spot = start.below (middle ++ [last]) := by
  simp only [matchingBelow, List.mem_map, List.mem_filter, NameToken.matchesAll_star_iff] at h
  obtain ⟨⟨names, t⟩, ⟨-, hsuffix⟩, rfl⟩ := h
  obtain rfl | ⟨middle, last, rfl⟩ := names.eq_nil_or_concat
  · exact absurd (List.suffix_nil.1 hsuffix) hending
  · rw [List.concat_eq_append] at hsuffix ⊢
    exact ⟨middle, last, by simpa using hsuffix, rfl⟩

/-- Everything below a folder is found there whose name ends as it should. -/
theorem below_mem_matchingBelow {middle : List String} {last : String}
    (h : ending <:+ last.toList)
    (hat : d.root.at? (start.below (middle ++ [last])).place = some t) :
    start.below (middle ++ [last]) ∈ matchingBelow d (.anyChars :: ending.map .char) start := by
  simp only [matchingBelow, List.mem_map, List.mem_filter, NameToken.matchesAll_star_iff]
  refine ⟨(middle ++ [last], t), ⟨?_, by simpa using h⟩, rfl⟩
  obtain ⟨u, hu, hnames⟩ := FileTree.at?_append_eq_some_iff.1 hat
  rw [Spot.tree, hu]
  exact FileTree.mem_inside_of_at? (by simp) hnames

/-- The names of a folder and of something directly in it whose name has an ending. -/
def IsEntry (folder : String) (ending : List Char) (names : List String) : Prop :=
  ∃ last : String, ending <:+ last.toList ∧ names = [folder, last]

/-- The names on the way from a folder to something anywhere below it whose name has an ending. -/
def IsBelow (folder : String) (ending : List Char) (names : List String) : Prop :=
  ∃ middle, ∃ last : String, ending <:+ last.toList ∧ names = folder :: (middle ++ [last])

section

variable (hfolder : folder ∉ specialSegments) (hat : d.root.at? spot.place = some t)

include hfolder hat

/-- A folder with a star and an ending after it leads to the entries that end so. -/
theorem mem_expand_entry_iff (hending : 2 < ending.length) :
    spot ∈ expand d [.name (folder.toList.map .char), .name (.anyChars :: ending.map .char)] start ↔
      ∃ names, IsEntry folder ending names ∧ spot = start.below names := by
  simp only [expand, List.mem_flatMap, List.mem_singleton, mem_matching_iff hfolder,
    mem_matching_star_iff hending]
  constructor
  · rintro ⟨first, ⟨-, rfl⟩, _, ⟨last, hsuffix, -, rfl⟩, rfl⟩
    exact ⟨_, ⟨last, hsuffix, rfl⟩, by simp [Spot.below]⟩
  · rintro ⟨_, ⟨last, hsuffix, rfl⟩, rfl⟩
    have hplace : d.root.at? ((start.place ++ [folder]) ++ [last]) = some t := by
      simpa [Spot.below] using hat
    obtain ⟨u, hu, -⟩ := FileTree.at?_append_eq_some_iff.1 hplace
    refine ⟨_, ⟨by rw [hu]; rfl, rfl⟩, _, ⟨last, hsuffix, ?_, rfl⟩, by simp [Spot.below]⟩
    exact Option.isSome_iff_exists.2 ⟨t, hplace⟩

/-- With any folders between them it leads to everything below that ends so. -/
theorem mem_expand_below_iff (hending : ending ≠ []) :
    spot ∈ expand d [.name (folder.toList.map .char), .anyFolders,
        .name (.anyChars :: ending.map .char)] start ↔
      ∃ names, IsBelow folder ending names ∧ spot = start.below names := by
  simp only [expand, List.mem_flatMap, List.mem_singleton, mem_matching_iff hfolder]
  constructor
  · rintro ⟨first, ⟨-, rfl⟩, found, hfound, rfl⟩
    obtain ⟨middle, last, hsuffix, rfl⟩ := exists_of_mem_matchingBelow hending hfound
    exact ⟨_, ⟨middle, last, hsuffix, rfl⟩, by simp [Spot.below]⟩
  · rintro ⟨_, ⟨middle, last, hsuffix, rfl⟩, rfl⟩
    have hbelow : start.below (folder :: (middle ++ [last])) =
        (start.below [folder]).below (middle ++ [last]) := by simp [Spot.below]
    rw [hbelow] at hat ⊢
    obtain ⟨u, hu, -⟩ := FileTree.at?_append_eq_some_iff.1 hat
    exact ⟨_, ⟨Option.isSome_iff_exists.2 ⟨u, hu⟩, rfl⟩, _,
      below_mem_matchingBelow hsuffix hat, rfl⟩

end

end SegmentPattern

/-! ## §4 Discovered files -/

/-- What the index looks for. -/
inductive Sought where
  | includes
  | definitions (files : DefinitionFiles)
  deriving DecidableEq, Repr

namespace Sought

/-- The patterns of what is looked for. -/
def patterns : Sought → List String
  | .includes => ProjectIndex.includePatterns
  | .definitions files => files.patterns

/-- Do the names lead from the folder of a project to what is looked for?  Includes are directly in
their folder, definitions anywhere in one of theirs. -/
def Fits (names : List String) : Sought → Prop
  | .includes => SegmentPattern.IsEntry "includes" ".jinja".toList names
  | .definitions files => ∃ folder ∈ ["definitions", "models"], ∃ extension ∈ files.extensions,
    SegmentPattern.IsBelow folder ('.' :: extension.toList) names

theorem Fits.ne_nil {sought : Sought} {names : List String} (h : sought.Fits names) :
    names ≠ [] := by
  cases sought with
  | includes =>
    obtain ⟨last, -, rfl⟩ := h
    exact List.cons_ne_nil _ _
  | definitions files =>
    obtain ⟨folder, -, extension, -, middle, last, -, rfl⟩ := h
    exact List.cons_ne_nil _ _

theorem readable_of_mem_patterns {sought : Sought} :
    ∀ pattern ∈ sought.patterns, (SegmentPattern.readAll pattern).isSome = true := by
  have hincludes : ∀ pattern ∈ ProjectIndex.includePatterns,
      (SegmentPattern.readAll pattern).isSome = true := by decide +kernel
  have hdefinitions : ∀ pattern ∈ DefinitionFiles.current.patterns,
      (SegmentPattern.readAll pattern).isSome = true := by decide +kernel
  rcases sought with _ | (_ | _)
  · exact hincludes
  · exact hdefinitions
  · exact fun pattern hpattern =>
      hdefinitions pattern (ProjectIndex.patterns_legacy_subset hpattern)

end Sought

namespace ProjectFolder

variable {p : ProjectFolder} {names : List String} {contents : Contents} {path : String}

/-- The names lead from the folder of the project to a file with the contents. -/
def HoldsFile (p : ProjectFolder) (names : List String) (contents : Contents) : Prop :=
  ∃ place, p.disk.locate p.path = .ok place ∧
    p.disk.root.at? (place ++ names) = some (.file contents)

theorem HoldsFile.isName (h : p.HoldsFile names contents) (hnames : p.disk.root.Named) :
    ∀ name ∈ names, FileTree.IsName name := by
  obtain ⟨place, -, hat⟩ := h
  exact fun name hname => hnames.isName hat name (List.mem_append_right _ hname)

/-- A spot with names of which the first is a folder of the index is listed as these names are. -/
theorem relativePath_below {folder : String} {rest : List String} {start : Spot}
    (hplain : Path.IsPlain p.path) (hstart : start.segments = Path.segments p.searchedFolder)
    (hfolder : folder ∈ indexFolders) (hrest : ∀ name ∈ rest, name ≠ "") :
    p.relativePath (start.below (folder :: rest)) = Path.ofNames (folder :: rest) := by
  obtain ⟨hproper, hhead, hback⟩ := folder_facts folder hfolder
  have hall : rest.filter (· != "") = rest :=
    List.filter_eq_self.2 fun name hname => by simpa using hrest name hname
  have hspot : (start.below (folder :: rest)).segments =
      Path.segments p.searchedFolder ++ folder :: rest := by
    rw [Spot.below, hstart]
  rw [relativePath_eq hplain hspot hproper, hall, withoutHere_of_ne]
  · exact String.ofList_toList
  · change (Path.ofNames (folder :: rest)).toList.head? ≠ _
    obtain ⟨tail, htail⟩ := Path.exists_toList_ofNames_cons hback rest
    rw [htail]
    exact hhead tail

/-- What a pattern finds are the files at the spots to which it leads. -/
theorem mem_filesOf_iff {pattern : String} {segments : List SegmentPattern}
    (hread : SegmentPattern.readAll pattern = some segments)
    (hfiles : isForFolders pattern = false) :
    path ∈ p.filesOf pattern ↔ ∃ spot contents, spot ∈ p.spotsOf pattern segments ∧
      p.disk.root.at? spot.place = some (.file contents) ∧ path = p.relativePath spot := by
  have hfile (spot : Spot) : (spot.tree p.disk).isFile = true ↔
      ∃ contents, p.disk.root.at? spot.place = some (.file contents) := by
    rw [Spot.tree]
    rcases p.disk.root.at? spot.place with _ | (contents | entries) <;>
      simp [FileTree.empty, FileTree.isFile]
  rw [filesOf, filesMatching_eq_ok hread, hfiles, if_neg Bool.false_ne_true]
  simp only [Except.toOption, Option.getD_some, List.mem_map, List.mem_filter, hfile]
  constructor
  · rintro ⟨spot, ⟨hspot, contents, hat⟩, rfl⟩
    exact ⟨spot, contents, hspot, hat, rfl⟩
  · rintro ⟨spot, contents, hspot, hat, rfl⟩
    exact ⟨spot, ⟨hspot, contents, hat⟩, rfl⟩

/-- If the searched folder is there, so are its names, none of which holds NUL. -/
theorem nul_not_mem_of_walk {place origin : List String} (hplain : Path.IsPlain p.path)
    (hnames : p.disk.root.Named)
    (h : p.disk.walk origin (Path.segments p.searchedFolder) = .ok place) :
    '\x00' ∉ p.path.toList := by
  obtain ⟨first, inner, count, hsearched, hsegments, -, -⟩ := exists_segments_path hplain
  intro hmem
  obtain ⟨segment, hsegment, hnul⟩ := Path.exists_segment_of_mem hmem (by decide)
  rw [hsegments, ← List.cons_append, ← hsearched, List.mem_append] at hsegment
  rcases hsegment with hsegment | hsegment
  · exact Disk.nul_not_mem_of_walk hnames h segment hsegment hnul
  · rw [List.eq_of_mem_replicate hsegment] at hnul
    cases hnul

/-- The names lead to a file that is looked for. -/
structure Discovered (p : ProjectFolder) (sought : Sought) (names : List String)
    (contents : Contents) : Prop where
  fits : sought.Fits names
  holdsFile : p.HoldsFile names contents

/-- What a pattern finds, by the names to which it leads. -/
theorem mem_filesOf_iff_names {pattern : String} {segments : List SegmentPattern}
    {fits : List String → Prop} (hplain : Path.IsPlain p.path) (hnames : p.disk.root.Named)
    (hread : SegmentPattern.readAll pattern = some segments)
    (hfiles : isForFolders pattern = false)
    (hfits : ∀ names, fits names → ∃ folder ∈ indexFolders, ∃ rest, names = folder :: rest)
    (hexpand : ∀ {start spot : Spot} {t : FileTree}, p.disk.root.at? spot.place = some t →
      (spot ∈ SegmentPattern.expand p.disk segments start ↔
        ∃ names, fits names ∧ spot = start.below names)) :
    path ∈ p.filesOf pattern ↔ ∃ names contents, fits names ∧ p.HoldsFile names contents ∧
      path = Path.ofNames names := by
  -- The names on the way to a file are names of entries, which listing does not change.
  have hlisted {names : List String} {contents : Contents} {start : Spot}
      (hstart : start.segments = Path.segments p.searchedFolder) (h : fits names)
      (hfile : p.HoldsFile names contents) :
      p.relativePath (start.below names) = Path.ofNames names := by
    obtain ⟨folder, hfolder, rest, rfl⟩ := hfits names h
    exact relativePath_below hplain hstart hfolder fun name hname =>
      (hfile.isName hnames name (List.mem_cons_of_mem _ hname)).1
  -- What a file is in is a folder.
  have hfolder {names place : List String} {contents : Contents} (h : fits names)
      (hat : p.disk.root.at? (place ++ names) = some (.file contents)) :
      ∃ entries, p.disk.root.at? place = some (.folder entries) := by
    obtain ⟨folder, -, rest, rfl⟩ := hfits names h
    obtain ⟨t, ht, hrest⟩ := FileTree.at?_append_eq_some_iff.1 hat
    cases t with
    | file contents => cases hrest
    | folder entries => exact ⟨entries, ht⟩
  rw [mem_filesOf_iff hread hfiles]
  simp only [mem_spotsOf_iff]
  constructor
  · rintro ⟨spot, contents, ⟨start, hwalk, hstart, hspot⟩, hat, rfl⟩
    obtain ⟨names, hfit, rfl⟩ := (hexpand hat).1 hspot
    obtain ⟨entries, hentries⟩ := hfolder hfit hat
    have hplace : p.disk.locate p.path = .ok start.place :=
      (locate_eq_ok_iff pattern hplain (nul_not_mem_of_walk hplain hnames hwalk) hentries).2
        hwalk
    have hfile : p.HoldsFile names contents := ⟨start.place, hplace, hat⟩
    exact ⟨names, contents, hfit, hfile, hlisted hstart hfit hfile⟩
  · rintro ⟨names, contents, hfit, ⟨place, hplace, hat⟩, rfl⟩
    obtain ⟨entries, hentries⟩ := hfolder hfit hat
    obtain ⟨start, hstart, rfl⟩ : ∃ start : Spot,
        start.segments = Path.segments p.searchedFolder ∧ start.place = place := by
      generalize Path.segments p.searchedFolder = segments
      exact ⟨{ segments, place }, rfl, rfl⟩
    have hwalk := (locate_eq_ok_iff pattern hplain
      (Disk.nul_not_mem_of_locate hplace) hentries).1 hplace
    exact ⟨start.below names, contents, ⟨start, hwalk, hstart, (hexpand hat).2 ⟨names, hfit, rfl⟩⟩,
      hat, (hlisted hstart hfit ⟨start.place, hplace, hat⟩).symm⟩

/-- The folders of the index are none of the special segments. -/
theorem indexFolders_not_special : ∀ folder ∈ indexFolders, folder ∉ specialSegments := by decide

/-- No pattern of definitions is for folders. -/
theorem isForFolders_definitions : ∀ folder ∈ ["definitions", "models"],
    ∀ extension ∈ DefinitionFiles.current.extensions,
      isForFolders (folder ++ "/**/*." ++ extension) = false := by decide +kernel

theorem mem_flatMap_filesOf_iff {sought : Sought} (hplain : Path.IsPlain p.path)
    (hnames : p.disk.root.Named) :
    path ∈ sought.patterns.flatMap p.filesOf ↔
      ∃ names contents, p.Discovered sought names contents ∧ path = Path.ofNames names := by
  cases sought with
  | includes =>
    have hincludes : path ∈ p.filesOf "includes/*.jinja" ↔ ∃ names contents,
        SegmentPattern.IsEntry "includes" ".jinja".toList names ∧ p.HoldsFile names contents ∧
          path = Path.ofNames names := by
      refine mem_filesOf_iff_names hplain hnames readAll_includes (by decide) ?_ fun hat =>
        SegmentPattern.mem_expand_entry_iff (by decide) hat (by decide)
      rintro _ ⟨last, -, rfl⟩
      exact ⟨"includes", by decide, [last], rfl⟩
    rw [Sought.patterns, ProjectIndex.includePatterns, List.flatMap_singleton, hincludes]
    constructor
    · rintro ⟨names, contents, hfit, hfile, heq⟩
      exact ⟨names, contents, ⟨hfit, hfile⟩, heq⟩
    · rintro ⟨names, contents, h, heq⟩
      exact ⟨names, contents, h.fits, h.holdsFile, heq⟩
  | definitions files =>
    -- Older libraries have fewer extensions, all of which are among the current ones.
    have hcurrent : files.extensions ⊆ DefinitionFiles.current.extensions := by
      cases files <;> decide
    -- There is one pattern for each folder and extension.
    have hpattern {folder extension : String} (hfolder : folder ∈ ["definitions", "models"])
        (hextension : extension ∈ files.extensions) :
        path ∈ p.filesOf (folder ++ "/**/*." ++ extension) ↔ ∃ names contents,
          SegmentPattern.IsBelow folder ('.' :: extension.toList) names ∧
            p.HoldsFile names contents ∧ path = Path.ofNames names := by
      have hindexed : folder ∈ indexFolders := List.mem_cons_of_mem _ hfolder
      refine mem_filesOf_iff_names hplain hnames
        (readAll_definitions folder hfolder extension (hcurrent hextension))
        (isForFolders_definitions folder hfolder extension (hcurrent hextension)) ?_ fun hat =>
        SegmentPattern.mem_expand_below_iff (indexFolders_not_special folder hindexed) hat
          (List.cons_ne_nil _ _)
      rintro _ ⟨middle, last, -, rfl⟩
      exact ⟨folder, hindexed, _, rfl⟩
    rw [Sought.patterns, mem_flatMap_patterns]
    constructor
    · rintro ⟨folder, hfolder, extension, hextension, hpath⟩
      obtain ⟨names, contents, hfit, hfile, heq⟩ := (hpattern hfolder hextension).1 hpath
      exact ⟨names, contents, ⟨⟨folder, hfolder, extension, hextension, hfit⟩, hfile⟩, heq⟩
    · rintro ⟨names, contents, ⟨⟨folder, hfolder, extension, hextension, hfit⟩, hfile⟩, heq⟩
      exact ⟨folder, hfolder, extension, hextension,
        (hpattern hfolder hextension).2 ⟨names, contents, hfit, hfile, heq⟩⟩

/-- The patterns of the index can be read, and a discovery lists the files that are looked for. -/
theorem discover_eq_ok (p : ProjectFolder) (sought : Sought) :
    p.discover sought.patterns = .ok (orderedPaths (sought.patterns.flatMap p.filesOf)) := by
  refine discover_of_forall fun pattern hpattern => ?_
  obtain ⟨segments, hread⟩ := Option.isSome_iff_exists.1
    (Sought.readable_of_mem_patterns pattern hpattern)
  simp only [filesOf, filesMatching_eq_ok hread, Except.toOption, Option.getD_some]

end ProjectFolder

/-! ## §5 Reading -/

/-- What reading a file with the contents gives. -/
def Contents.read : Contents → Except AccessError String
  | .text s => .ok s
  | .binary => .error .notText

namespace ProjectFolder

variable {p : ProjectFolder} {names : List String} {contents : Contents} {path : String}

/-- The path is resolved, and it leads to the file in the project to which the names lead. -/
def Denotes (p : ProjectFolder) (path : String) (names : List String) : Prop :=
  ∃ place full, p.disk.locate p.path = .ok place ∧ p.resolve path = .ok full ∧
    p.disk.locate full = .ok (place ++ names)

/-- A path that is made of names without `\` and `:` does not lead out. -/
theorem leadsOut_ofNames (hne : names ≠ []) (hnames : ∀ name ∈ names, FileTree.IsName name)
    (hmarks : ∀ name ∈ names, ':' ∉ name.toList ∧ '\\' ∉ name.toList) :
    leadsOut (Path.ofNames names) = false := by
  have hback : ∀ name ∈ names, '\\' ∉ name.toList := fun name hname => (hmarks name hname).2
  have hsegments : Path.segments (Path.ofNames names) = names :=
    Path.segments_ofNames hback hne fun name hname => (hnames name hname).2.2.2.1
  have hempty : "" ∉ Path.segments (Path.ofNames names) :=
    fun hmem => (hnames "" (hsegments ▸ hmem)).1 rfl
  refine leadsOut_eq_false_iff.2 ⟨fun heq => hempty (by rw [heq]; decide),
    fun h => hempty (Path.mem_segments_of_isAbsolute h),
    fun hmem => (hnames ".." (hsegments ▸ hmem)).2.2.1 rfl, fun hmem => ?_⟩
  obtain ⟨name, hname, hcolon⟩ := Path.mem_of_mem_ofNames hback hmem (by decide)
  exact (hmarks name hname).1 hcolon

/-- The listed path leads back to the file if and only if no name holds `:` or `\`. -/
theorem denotes_ofNames_iff (hnames : p.disk.root.Named) (hne : names ≠ [])
    (hfile : p.HoldsFile names contents) :
    p.Denotes (Path.ofNames names) names ↔
      ∀ name ∈ names, ':' ∉ name.toList ∧ '\\' ∉ name.toList := by
  have hallowed := hfile.isName hnames
  constructor
  · rintro ⟨place, full, hplace, hresolve, hfull⟩ name hname
    obtain ⟨hleads, rfl⟩ := (resolve_eq_ok_iff _ _ _).1 hresolve
    rw [Path.normalize_ofNames] at hleads hfull
    obtain ⟨-, -, hback, hcolon⟩ := leadsOut_eq_false_iff.1 hleads
    refine ⟨fun hmem => hcolon (Path.mem_ofNames hname hmem (by decide)), fun hmem => ?_⟩
    -- The names are segments of a path in which `\` has been replaced.
    rw [Disk.locate_append hplace, Disk.walk_eq_descend hback] at hfull
    split at hfull
    · cases hfull
    · obtain ⟨names', hdescend, heq⟩ := exists_of_map_eq_ok hfull
      obtain rfl := List.append_cancel_left heq
      rw [FileTree.eq_of_descend_eq_ok hdescend] at hname
      exact Path.backslash_not_mem_normalize _
        (Path.mem_of_mem_segments (List.mem_filter.1 hname).1 hmem)
  · intro hmarks
    obtain ⟨place, hplace, hat⟩ := hfile
    have hback : ∀ name ∈ names, '\\' ∉ name.toList := fun name hname => (hmarks name hname).2
    have hsegments : Path.segments (Path.ofNames names) = names :=
      Path.segments_ofNames hback hne fun name hname => (hallowed name hname).2.2.2.1
    have hnul : '\x00' ∉ (Path.ofNames names).toList := by
      intro hmem
      obtain ⟨name, hname, hmem⟩ := Path.mem_of_mem_ofNames hback hmem (by decide)
      exact (hallowed name hname).2.2.2.2 hmem
    have hparent : ".." ∉ names := fun hmem => (hallowed ".." hmem).2.2.1 rfl
    -- The walk starts in the folder of the project, and there the segments are the names again.
    obtain ⟨t, ht, hat⟩ := FileTree.at?_append_eq_some_iff.1 hat
    have hdescend := FileTree.descend_of_at? (fun name hname => (hallowed name hname).isProper) hat
    refine ⟨place, Path.append p.path (Path.ofNames names), hplace,
      (resolve_eq_ok_iff _ _ _).2 ⟨?_, by rw [Path.normalize_ofNames]⟩, ?_⟩
    · rw [Path.normalize_ofNames]
      exact leadsOut_ofNames hne hallowed hmarks
    · rw [Disk.locate_append hplace, if_neg hnul, hsegments, Disk.walk_eq_descend hparent, ht,
        hdescend]
      rfl

/-- A file to which a path leads is read by the path. -/
theorem read_of_denotes (h : p.Denotes path names) (hfile : p.HoldsFile names contents) :
    p.read path = (contents.read.map some).mapError (.unreadable path) := by
  obtain ⟨place, full, hplace, hresolve, hfull⟩ := h
  obtain ⟨place', hplace', hat⟩ := hfile
  rw [hplace] at hplace'
  cases hplace'
  have hfind : p.disk.find full = .ok (.file contents) := by
    rw [Disk.find, hfull]
    dsimp only [bind, Except.bind]
    rw [hat]
    rfl
  rw [read, hresolve]
  change (if p.disk.isFile full then _ else _) = _
  rw [Disk.isFile, hfind, Disk.read, hfind]
  cases contents <;> rfl

/-- A discovery lists exactly the files that are looked for, each by the path that is made of the
names on the way to it.  The path leads back to the file if and only if none of these names holds
`:` or `\`, and then the file is read by it. -/
theorem discovered_readable (p : ProjectFolder) (sought : Sought) (hplain : Path.IsPlain p.path)
    (hnames : p.disk.root.Named) :
    ∃ paths, p.discover sought.patterns = .ok paths ∧
      (∀ path, path ∈ paths ↔
        ∃ names contents, p.Discovered sought names contents ∧ path = Path.ofNames names) ∧
      ∀ names contents, p.Discovered sought names contents →
        (p.Denotes (Path.ofNames names) names ↔
          ∀ name ∈ names, ':' ∉ name.toList ∧ '\\' ∉ name.toList) ∧
        (p.Denotes (Path.ofNames names) names → p.read (Path.ofNames names) =
          (contents.read.map some).mapError (.unreadable (Path.ofNames names))) := by
  refine ⟨_, discover_eq_ok p sought, fun path => ?_, fun names contents h => ?_⟩
  · rw [mem_orderedPaths, mem_flatMap_filesOf_iff hplain hnames]
  · exact ⟨denotes_ofNames_iff hnames h.fits.ne_nil h.holdsFile,
      fun hdenotes => read_of_denotes hdenotes h.holdsFile⟩

/-- A project with three definitions, the names of two of which hold a mark that paths have a
meaning for. -/
def markedNames : ProjectFolder where
  disk.root :=
    [(["in", "a.sql"], "select 1"), (["b:c.sql"], "select 2"), (["d\\e.sql"], "select 3")].foldl
      (fun t (names, text) => t.putFile ("work" :: "definitions" :: names) (.text text)) .empty
  path := "/work"

/-- All three are listed, but only the path of the first one leads to its file. -/
theorem discovered_readable_markedNames :
    markedNames.disk.root.Named ∧
      ∃ paths, markedNames.discover DefinitionFiles.current.patterns = .ok paths ∧
        "definitions/in/a.sql" ∈ paths ∧ "definitions/b:c.sql" ∈ paths ∧
        "definitions/d/e.sql" ∈ paths ∧
        markedNames.read "definitions/in/a.sql" = .ok (some "select 1") ∧
        ¬ markedNames.Denotes "definitions/b:c.sql" ["definitions", "b:c.sql"] ∧
        ¬ markedNames.Denotes "definitions/d/e.sql" ["definitions", "d\\e.sql"] := by
  have hplain : Path.IsPlain markedNames.path := ⟨by decide, by decide, by decide⟩
  have hnames : markedNames.disk.root.Named := by decide +kernel
  have hdiscovered {middle : List String} {last : String} {contents : Contents}
      (hlast : ".sql".toList <:+ last.toList)
      (hat : markedNames.disk.root.at? ("work" :: "definitions" :: (middle ++ [last])) =
        some (.file contents)) :
      markedNames.Discovered (.definitions .current) ("definitions" :: (middle ++ [last]))
        contents :=
    ⟨⟨"definitions", by decide, "sql", by decide, middle, last, hlast, rfl⟩, ["work"], rfl, hat⟩
  have ha := @hdiscovered ["in"] "a.sql" _ (by decide) rfl
  have hb := @hdiscovered [] "b:c.sql" _ (by decide) rfl
  have hd := @hdiscovered [] "d\\e.sql" _ (by decide) rfl
  obtain ⟨paths, hpaths, hmem, hread⟩ :=
    discovered_readable markedNames (.definitions .current) hplain hnames
  refine ⟨hnames, paths, hpaths, (hmem _).2 ⟨_, _, ha, by decide⟩, (hmem _).2 ⟨_, _, hb, by decide⟩,
    (hmem _).2 ⟨_, _, hd, by decide⟩, ?_, fun h => ?_, fun h => ?_⟩
  · exact (hread _ _ ha).2 ((hread _ _ ha).1.2 (by decide))
  · exact absurd ((hread _ _ hb).1.1 h) (by decide)
  · exact absurd ((hread _ _ hd).1.1 h) (by decide)

/-- So a file can be discovered that is refused when it is to be read. -/
theorem resolve_discovered_eq_error :
    ∃ paths, markedNames.discover DefinitionFiles.current.patterns = .ok paths ∧
      "definitions/b:c.sql" ∈ paths ∧
      markedNames.resolve "definitions/b:c.sql" = .error (.escapes "definitions/b:c.sql") := by
  have hplain : Path.IsPlain markedNames.path := ⟨by decide, by decide, by decide⟩
  have hnames : markedNames.disk.root.Named := by decide +kernel
  refine ⟨_, discover_eq_ok markedNames (.definitions .current), ?_, rfl⟩
  rw [mem_orderedPaths, mem_flatMap_filesOf_iff hplain hnames]
  refine ⟨["definitions", "b:c.sql"], .text "select 2", ⟨?_, ["work"], rfl, rfl⟩, by decide⟩
  exact ⟨"definitions", by decide, "sql", by decide, [], "b:c.sql", by decide, rfl⟩

end ProjectFolder

end SqlWorkflow
