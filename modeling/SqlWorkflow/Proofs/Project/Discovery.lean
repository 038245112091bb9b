import SqlWorkflow.Project.CoreLibrary
import SqlWorkflow.Proofs.Project.Folders
import Mathlib.Data.List.Sort

/-!
# Discovered files and given files

The index of a project tells the sort of a file in two ways.  Files that are discovered are found
by patterns, and paths that are given are told apart by their first folder and by their extension.
The two agree: a path that a pattern finds has the folder and the extension that the pattern names
(`listed_of_filesMatching`), so the paths of an index, given as they are, are indexed as they were.
In particular the discovered files that are not of the sectioned dialect, when they are given, have
the index of a discovery that knows nothing of that dialect (`ofPaths_discovered`).

- **§1** Paths in their order.
- **§2** Names that a pattern matches.
- **§3** The paths of files with an extension in a folder.
- **§4** Where the patterns of the index lead.
- **§5** The index of the discovered paths.
-/

namespace SqlWorkflow

/-! ## §1 Paths in their order -/

theorem mem_names_insertEntry {α : Type} {name other : String} {value : α}
    {entries : List (String × α)} :
    other ∈ (insertEntry name value entries).map (·.1) ↔
      other = name ∨ other ∈ entries.map (·.1) := by
  induction entries with
  | nil => simp [insertEntry]
  | cons first rest ih =>
    rw [insertEntry]
    split
    · simp
    · split
      · next heq => simp [heq]
      · rw [List.map_cons, List.mem_cons, ih, List.map_cons, List.mem_cons, or_left_comm]

/-- The names of a dictionary are those of the entries that it was made of. -/
theorem Dict.mem_keys_extend {α : Type} {name : String} {d : Dict α}
    {entries : List (String × α)} :
    name ∈ (d.extend entries).keys ↔ name ∈ d.keys ∨ name ∈ entries.map (·.1) := by
  induction entries generalizing d with
  | nil => simp
  | cons entry rest ih =>
    have hinsert : name ∈ (d.insert entry.1 entry.2).keys ↔ name = entry.1 ∨ name ∈ d.keys :=
      mem_names_insertEntry
    rw [show d.extend (entry :: rest) = (d.insert entry.1 entry.2).extend rest from rfl, ih,
      hinsert, List.map_cons, List.mem_cons, or_assoc, or_left_comm]

@[simp] theorem mem_orderedPaths {path : String} {paths : List String} :
    path ∈ orderedPaths paths ↔ path ∈ paths := by
  rw [orderedPaths, Dict.ofList, Dict.mem_keys_extend]
  simp [Dict.keys, Dict.empty]

/-- The order of paths depends only on which paths there are. -/
theorem orderedPaths_congr {paths paths' : List String}
    (h : ∀ path, path ∈ paths ↔ path ∈ paths') : orderedPaths paths = orderedPaths paths' := by
  have hsorted (paths : List String) : (orderedPaths paths).Pairwise (· < ·) :=
    List.pairwise_map.2 (Dict.ofList _).sorted
  exact (hsorted paths).eq_of_mem_iff (hsorted paths') fun path => by simp [h]

/-! ## §2 Names -/

namespace NameToken

/-- Characters that stand for themselves match one name. -/
theorem matchesAll_literal {s cs : List Char} : matchesAll (s.map .char) cs = true ↔ cs = s := by
  induction s generalizing cs with
  | nil => simp [matchesAll]
  | cons c s ih =>
    cases cs with
    | nil => simp [matchesAll]
    | cons d cs => simp [matchesAll, accepts, ih]

/-- A star and characters that stand for themselves match the names that end in them. -/
theorem isSuffix_of_matchesAll {s cs : List Char}
    (h : matchesAll (.anyChars :: s.map .char) cs = true) : s <:+ cs := by
  induction cs with
  | nil =>
    rw [matchesAll, matchesAll_literal] at h
    exact h ▸ List.suffix_rfl
  | cons c cs ih =>
    rw [matchesAll, Bool.or_eq_true, matchesAll_literal] at h
    rcases h with h | h
    · exact h ▸ List.suffix_rfl
    · exact (ih h).trans (List.suffix_cons c cs)

theorem literal?_map_char (s : List Char) : literal? (s.map .char) = some s := by
  induction s with
  | nil => rfl
  | cons c s ih => simp [literal?, ih]

end NameToken

/-! ## §3 Paths -/

namespace Text

/-- Texts with a separator between them, the last of which ends in some way. -/
theorem suffix_join (sep : String) {parts : List String} {last : String} {ending : List Char}
    (hlast : parts.getLast? = some last) (h : ending <:+ last.toList) :
    ending <:+ (join sep parts).toList := by
  fun_induction join sep parts with
  | case1 => cases hlast
  | case2 part =>
    cases hlast
    exact h
  | case3 part parts hne ih =>
    have hparts : parts.getLast? = some last := by
      cases parts with
      | nil => exact absurd rfl hne
      | cons first rest => rwa [List.getLast?_cons_cons] at hlast
    rw [String.toList_append]
    exact (ih hparts).trans (List.suffix_append _ _)

end Text

/-- The extension of a path is what stands after its last dot. -/
theorem Path.extension_eq {path extension : String} {front : List Char}
    (hpath : path.toList = front ++ '.' :: extension.toList) (hslash : '/' ∉ extension.toList)
    (hdot : '.' ∉ extension.toList) : Path.extension path = extension := by
  have hending : '/' ∉ '.' :: extension.toList := by simpa using hslash
  obtain ⟨start, hstart⟩ := Text.getLast?_splitAt_append hending front
  have hname : (Path.fileName path).toList = start ++ '.' :: extension.toList := by
    rw [Path.fileName, Path.segments, Text.split, List.getLast?_map, hpath, hstart]
    simp
  have hparts : Text.split '.' (Path.fileName path) =
      (Text.splitAt '.' start).map String.ofList ++ [extension] := by
    rw [Text.split, hname, Text.splitAt_append_cons, Text.splitAt_of_not_mem hdot]
    simp
  rw [Path.extension, hparts]
  split
  · next part hone =>
    -- Before the dot there is a part too.
    have hlength := congrArg List.length hone
    simp at hlength
  · simp

/-- The folders in which the index looks for files. -/
def indexFolders : List String := ["includes", "definitions", "models"]

/-- The path of a file with an extension, somewhere in a folder. -/
structure Listed (folder extension path : String) : Prop where
  folder_mem : folder ∈ indexFolders
  extension_mem : extension ∈ DefinitionFiles.current.extensions
  shape : ∃ between, path.toList =
    folder.toList ++ '/' :: (between ++ '.' :: extension.toList)
  /-- The index writes `/` between all segments. -/
  slashes : '\\' ∉ path.toList

theorem withoutHere_of_ne {cs : List Char} (h : cs.head? ≠ some '.') : withoutHere cs = cs := by
  unfold withoutHere
  split
  · exact absurd rfl h
  · rfl

/-- What is known of each of the folders. -/
theorem folder_facts : ∀ folder ∈ indexFolders, (folder == "" || folder == ".") = false ∧
    (∀ rest, (folder.toList ++ rest).head? ≠ some '.') ∧ '\\' ∉ folder.toList := by
  simp [indexFolders]

/-- What is known of each of the extensions. -/
theorem extension_facts : ∀ extension ∈ DefinitionFiles.current.extensions,
    '/' ∉ extension.toList ∧ '.' ∉ extension.toList ∧ '\\' ∉ extension.toList := by
  simp [DefinitionFiles.extensions]

namespace Listed

variable {folder extension path : String}

theorem extension_eq (h : Listed folder extension path) : Path.extension path = extension := by
  obtain ⟨between, hshape⟩ := h.shape
  obtain ⟨hslash, hdot, -⟩ := extension_facts extension h.extension_mem
  have hfront : path.toList =
      (folder.toList ++ '/' :: between) ++ '.' :: extension.toList := by
    rw [hshape, List.append_assoc, List.cons_append]
  exact Path.extension_eq hfront hslash hdot

/-- A listed path stays as it is when it is given. -/
theorem given_eq (h : Listed folder extension path) : ProjectIndex.given path = path := by
  obtain ⟨between, hshape⟩ := h.shape
  have hhead : path.toList.head? ≠ some '.' :=
    hshape ▸ (folder_facts folder h.folder_mem).2.1 _
  rw [ProjectIndex.given, withoutHere_of_ne hhead, String.ofList_toList, Path.normalize,
    Text.replaceChar_of_not_mem h.slashes, String.ofList_toList]

theorem isInclude_iff (h : Listed folder extension path) :
    ProjectIndex.isInclude path = (folder == "includes" && extension == "jinja") := by
  obtain ⟨between, hshape⟩ := h.shape
  rw [ProjectIndex.isInclude, h.extension_eq, hshape]
  congr 1
  have hfolder := h.folder_mem
  simp only [indexFolders, List.mem_cons, List.not_mem_nil, or_false] at hfolder
  rcases hfolder with rfl | rfl | rfl <;> simp [List.isPrefixOf]

/-- The path ends in its extension. -/
theorem hasEnding_extension (h : Listed folder extension path) :
    Sql.hasEnding ("." ++ extension) path = true := by
  obtain ⟨between, hshape⟩ := h.shape
  refine List.isSuffixOf_iff_suffix.2 ⟨folder.toList ++ '/' :: between, ?_⟩
  rw [hshape, String.toList_append, List.append_assoc]
  rfl

/-- Files of the sectioned dialect are told by their extension. -/
theorem hasEnding_sqlx (h : Listed folder extension path) :
    Sql.hasEnding ".sqlx" path = (extension == "sqlx") := by
  have hending := h.hasEnding_extension
  have hextension := h.extension_mem
  simp only [DefinitionFiles.extensions, List.mem_cons, List.not_mem_nil, or_false] at hextension
  rcases hextension with rfl | rfl | rfl
  · exact Sql.hasEnding_eq_false hending (by decide) (by decide)
  · exact Sql.hasEnding_eq_false hending (by decide) (by decide)
  · exact hending

end Listed

/-! ## §4 Patterns -/

/-- A spot in a folder whose last name ends in some way is listed. -/
theorem listed_relativePath {p : ProjectFolder} {folder extension last : String} {spot : Spot}
    {names : List String} (hplain : Path.IsPlain p.path) (hfolder : folder ∈ indexFolders)
    (hextension : extension ∈ DefinitionFiles.current.extensions)
    (hspot : spot.segments = Path.segments p.searchedFolder ++ folder :: names)
    (hlast : names.getLast? = some last) (hending : '.' :: extension.toList <:+ last.toList) :
    Listed folder extension (p.relativePath spot) := by
  obtain ⟨hproper, hhead, hfolderSlashes⟩ := folder_facts folder hfolder
  obtain ⟨-, -, hextensionSlashes⟩ := extension_facts extension hextension
  -- Empty names are left out, but the last name is none of them.
  let named := names.filter (· != "")
  have hnamed : named.getLast? = some last := by
    obtain ⟨before, rfl⟩ := List.getLast?_eq_some_iff.1 hlast
    have hne : last ≠ "" := by
      rintro rfl
      simp at hending
    simp [named, List.filter_append, hne]
  have hjoin : (Text.join "/" (folder :: named)).toList =
      folder.toList ++ '/' :: (Text.join "/" named).toList := by
    cases hcases : named with
    | nil => rw [hcases] at hnamed; cases hnamed
    | cons first rest => simp [Text.join]
  obtain ⟨between, hbetween⟩ := Text.suffix_join "/" hnamed hending
  have hnormal : (Path.normalize (Text.join "/" (folder :: named))).toList = folder.toList ++
      '/' :: (Text.replaceChar '\\' ['/'] between ++ '.' :: extension.toList) := by
    have hdot : '\\' ∉ '.' :: extension.toList := by simpa using hextensionSlashes
    rw [Path.normalize, String.toList_ofList, hjoin, ← hbetween, Text.replaceChar_append,
      Text.replaceChar_of_not_mem hfolderSlashes, Text.replaceChar, if_neg (by decide),
      Text.replaceChar_append, Text.replaceChar_of_not_mem hdot]
  have hlisted : (p.relativePath spot).toList =
      (Path.normalize (Text.join "/" (folder :: named))).toList := by
    rw [ProjectFolder.relativePath_eq hplain hspot hproper, String.toList_ofList, withoutHere_of_ne]
    rw [hnormal]
    exact hhead _
  refine ⟨hfolder, hextension, ⟨_, hlisted.trans hnormal⟩, ?_⟩
  rw [hlisted, Path.normalize, String.toList_ofList]
  exact Text.not_mem_replaceChar (by decide)

/-- The patterns of definitions, segment by segment. -/
theorem readAll_definitions : ∀ folder ∈ ["definitions", "models"],
    ∀ extension ∈ DefinitionFiles.current.extensions,
      SegmentPattern.readAll (folder ++ "/**/*." ++ extension) =
        some [.name (folder.toList.map .char), .anyFolders,
          .name (.anyChars :: ('.' :: extension.toList).map .char)] := by decide +kernel

/-- The pattern of includes, segment by segment. -/
theorem readAll_includes : SegmentPattern.readAll "includes/*.jinja" =
    some [.name ("includes".toList.map .char),
      .name (.anyChars :: ('.' :: "jinja".toList).map .char)] := by decide +kernel

namespace SegmentPattern

variable {d : Disk} {folder : String} {ending : List Char} {start spot : Spot}

/-- The tokens of a name lead to what has the name. -/
theorem segments_of_matching (h : spot ∈ matching d (folder.toList.map .char) start) :
    spot.segments = start.segments ++ [folder] := by
  rw [matching, NameToken.literal?_map_char] at h
  have hspot := (enter?_eq_some.1 (Option.mem_toList.1 h)).2
  rwa [String.ofList_toList] at hspot

/-- A star and an ending lead to names that end so. -/
theorem segments_of_matching_star
    (h : spot ∈ matching d (.anyChars :: ending.map .char) start) :
    ∃ last : String, spot.segments = start.segments ++ [last] ∧ ending <:+ last.toList := by
  simp only [matching, NameToken.literal?, List.mem_filterMap, List.mem_filter] at h
  obtain ⟨last, ⟨-, hmatches⟩, henter⟩ := h
  exact ⟨last, (enter?_eq_some.1 henter).2, NameToken.isSuffix_of_matchesAll hmatches⟩

/-- Anywhere below a folder the same holds of the last name. -/
theorem segments_of_matchingBelow (hending : ending ≠ [])
    (h : spot ∈ matchingBelow d (.anyChars :: ending.map .char) start) :
    ∃ names last, spot.segments = start.segments ++ names ∧ names.getLast? = some last ∧
      ending <:+ last.toList := by
  simp only [matchingBelow, List.mem_map, List.mem_filter] at h
  obtain ⟨⟨names, tree⟩, ⟨-, hmatches⟩, rfl⟩ := h
  have hsuffix := NameToken.isSuffix_of_matchesAll hmatches
  cases hlast : names.getLast? with
  | some last => exact ⟨names, last, rfl, hlast, by simpa [hlast] using hsuffix⟩
  | none => exact absurd (List.suffix_nil.1 (by simpa [hlast] using hsuffix)) hending

end SegmentPattern

namespace ProjectFolder

variable {p : ProjectFolder} {folder extension path : String} {paths : List String}

/-- The files that a pattern finds are where it leads from the searched folder on. -/
theorem exists_spot_of_filesMatching {pattern : String} {segments : List SegmentPattern}
    (hread : SegmentPattern.readAll pattern = some segments)
    (h : p.filesMatching pattern = .ok paths) (hpath : path ∈ paths) :
    ∃ start spot : Spot, start.segments = Path.segments p.searchedFolder ∧
      spot ∈ SegmentPattern.expand p.disk segments start ∧ p.relativePath spot = path := by
  rw [filesMatching_eq_ok hread] at h
  cases h
  split at hpath
  · cases hpath
  · obtain ⟨spot, hspot, heq⟩ := List.mem_map.1 hpath
    obtain ⟨start, -, hstart, hspot⟩ := mem_spotsOf_iff.1 (List.mem_of_mem_filter hspot)
    exact ⟨start, spot, hstart, hspot, heq⟩

variable (hplain : Path.IsPlain p.path)

include hplain

/-- Definitions are found in their folder, with the extension that is looked for. -/
theorem listed_of_definitions (hfolder : folder ∈ ["definitions", "models"])
    (hextension : extension ∈ DefinitionFiles.current.extensions)
    (h : p.filesMatching (folder ++ "/**/*." ++ extension) = .ok paths) (hpath : path ∈ paths) :
    Listed folder extension path := by
  obtain ⟨start, spot, hstart, hspot, rfl⟩ := exists_spot_of_filesMatching
    (readAll_definitions folder hfolder extension hextension) h hpath
  simp only [SegmentPattern.expand, List.mem_flatMap, List.mem_singleton] at hspot
  obtain ⟨first, hfirst, below, hbelow, rfl⟩ := hspot
  obtain ⟨names, last, hsegments, hlast, hending⟩ :=
    SegmentPattern.segments_of_matchingBelow (List.cons_ne_nil _ _) hbelow
  rw [SegmentPattern.segments_of_matching hfirst, hstart, List.append_assoc] at hsegments
  exact listed_relativePath hplain (List.mem_cons_of_mem _ hfolder) hextension hsegments hlast
    hending

/-- Includes are found in theirs. -/
theorem listed_of_includes (h : p.filesMatching "includes/*.jinja" = .ok paths)
    (hpath : path ∈ paths) : Listed "includes" "jinja" path := by
  obtain ⟨start, spot, hstart, hspot, rfl⟩ := exists_spot_of_filesMatching readAll_includes h hpath
  simp only [SegmentPattern.expand, List.mem_flatMap, List.mem_singleton] at hspot
  obtain ⟨first, hfirst, found, hfound, rfl⟩ := hspot
  obtain ⟨last, hsegments, hending⟩ := SegmentPattern.segments_of_matching_star hfound
  rw [SegmentPattern.segments_of_matching hfirst, hstart, List.append_assoc] at hsegments
  exact listed_relativePath hplain (by decide) (by decide) hsegments rfl hending

end ProjectFolder

/-! ## §5 The index -/

namespace ProjectFolder

variable {p : ProjectFolder} {patterns paths : List String} {path : String}

/-- The paths of the files to which a pattern leads, if it can be read. -/
def filesOf (p : ProjectFolder) (pattern : String) : List String :=
  (p.filesMatching pattern).toOption.getD []

theorem discover_of_forall
    (h : ∀ pattern ∈ patterns, p.filesMatching pattern = .ok (p.filesOf pattern)) :
    p.discover patterns = .ok (orderedPaths (patterns.flatMap p.filesOf)) := by
  rw [discover, mapM_eq_ok_of_forall h, List.flatMap_def]
  rfl

/-- If a discovery works, all its patterns can be read. -/
theorem filesMatching_of_discover (h : p.discover patterns = .ok paths) :
    ∀ pattern ∈ patterns, p.filesMatching pattern = .ok (p.filesOf pattern) := by
  obtain ⟨found, hfound, -⟩ := exists_of_bind_eq_ok h
  clear h
  induction patterns generalizing found with
  | nil =>
    intro pattern hpattern
    cases hpattern
  | cons pattern patterns ih =>
    rw [List.mapM_cons] at hfound
    obtain ⟨files, hfiles, hfound⟩ := exists_of_bind_eq_ok hfound
    obtain ⟨rest, hrest, -⟩ := exists_of_bind_eq_ok hfound
    rintro other (_ | ⟨_, hother⟩)
    · rw [filesOf, hfiles]
      rfl
    · exact ih rest hrest other hother

theorem mem_flatMap_patterns {files : DefinitionFiles} :
    path ∈ files.patterns.flatMap p.filesOf ↔ ∃ folder ∈ ["definitions", "models"],
      ∃ extension ∈ files.extensions, path ∈ p.filesOf (folder ++ "/**/*." ++ extension) := by
  simp only [DefinitionFiles.patterns, List.mem_flatMap, List.mem_map]
  constructor
  · rintro ⟨_, ⟨folder, hfolder, extension, hextension, rfl⟩, hpath⟩
    exact ⟨folder, hfolder, extension, hextension, hpath⟩
  · rintro ⟨folder, hfolder, extension, hextension, hpath⟩
    exact ⟨_, ⟨folder, hfolder, extension, hextension, rfl⟩, hpath⟩

end ProjectFolder

namespace ProjectIndex

variable {p : ProjectFolder} {index : ProjectIndex}

/-- The index of a discovery. -/
theorem generate_of_forall {files : DefinitionFiles}
    (h : ∀ pattern ∈ includePatterns ++ files.patterns,
      p.filesMatching pattern = .ok (p.filesOf pattern)) :
    generate files p none = .ok
      { includes := orderedPaths (p.filesOf "includes/*.jinja")
        definitions := orderedPaths (files.patterns.flatMap p.filesOf) } := by
  rw [generate, ProjectFolder.discover_of_forall fun pattern hp => h pattern (by simp [hp]),
    ProjectFolder.discover_of_forall fun pattern hp => h pattern (by simp [hp])]
  simp [includePatterns]
  rfl

/-- If there is an index, all patterns of the discovery can be read. -/
theorem filesMatching_of_generate {files : DefinitionFiles}
    (h : generate files p none = .ok index) :
    ∀ pattern ∈ includePatterns ++ files.patterns,
      p.filesMatching pattern = .ok (p.filesOf pattern) := by
  obtain ⟨includes, hincludes, h⟩ := exists_of_bind_eq_ok h
  obtain ⟨definitions, hdefinitions, -⟩ := exists_of_bind_eq_ok h
  intro pattern hpattern
  rcases List.mem_append.1 hpattern with hpattern | hpattern
  · exact ProjectFolder.filesMatching_of_discover hincludes pattern hpattern
  · exact ProjectFolder.filesMatching_of_discover hdefinitions pattern hpattern

/-- Each list of an index of given paths is made of those of them that are listed as such. -/
theorem ofPaths_eq {files : DefinitionFiles} {paths includes definitions : List String}
    (hgiven : ∀ path ∈ paths, given path = path)
    (hincludes : ∀ path, path ∈ paths ∧ isInclude path = true ↔ path ∈ includes)
    (hdefinitions : ∀ path, path ∈ paths ∧ isInclude path = false ∧
      Path.extension path ∈ files.extensions ↔ path ∈ definitions) :
    ofPaths files paths =
      { includes := orderedPaths includes, definitions := orderedPaths definitions } := by
  have hsame : paths.map given = paths :=
    (List.map_congr_left hgiven).trans (List.map_id paths)
  rw [ofPaths, hsame]
  congr 1
  · exact orderedPaths_congr fun path => by rw [List.mem_filter, hincludes]
  · exact orderedPaths_congr fun path => by
      rw [List.mem_filter, ← hdefinitions]
      simp

/-- The patterns of a discovery are also read by one that knows of more extensions. -/
theorem patterns_legacy_subset :
    DefinitionFiles.legacy.patterns ⊆ DefinitionFiles.current.patterns := by decide

/-- The legacy extensions are those that are not of the sectioned dialect. -/
theorem mem_legacy_extensions {extension : String} :
    extension ∈ DefinitionFiles.legacy.extensions ↔
      extension ∈ DefinitionFiles.current.extensions ∧ (extension == "sqlx") = false := by
  simp only [DefinitionFiles.extensions, List.mem_cons, List.not_mem_nil, or_false,
    beq_eq_false_iff_ne]
  grind

section

variable (hplain : Path.IsPlain p.path)

include hplain

/-- What a pattern of definitions finds is listed. -/
theorem listed_of_read {files : DefinitionFiles} {folder extension path : String}
    (hread : ∀ pattern ∈ includePatterns ++ files.patterns,
      p.filesMatching pattern = .ok (p.filesOf pattern))
    (hfolder : folder ∈ ["definitions", "models"]) (hextension : extension ∈ files.extensions)
    (hpath : path ∈ p.filesOf (folder ++ "/**/*." ++ extension)) :
    Listed folder extension path := by
  have hcurrent : files.extensions ⊆ DefinitionFiles.current.extensions := by
    cases files <;> decide
  have hpattern : folder ++ "/**/*." ++ extension ∈ files.patterns :=
    List.mem_flatMap.2 ⟨folder, hfolder, List.mem_map.2 ⟨extension, hextension, rfl⟩⟩
  exact ProjectFolder.listed_of_definitions hplain hfolder (hcurrent hextension)
    (hread _ (List.mem_append_right _ hpattern)) hpath

/-- Discovered paths that are given, but for those of the sectioned dialect, have the index of a
discovery that knows nothing of that dialect. -/
theorem ofPaths_discovered (h : generate .current p none = .ok index) :
    generate .legacy p none = .ok (ofPaths .current
      ((index.includes ++ index.definitions).filter fun path => !Sql.hasEnding ".sqlx" path)) := by
  have hread := filesMatching_of_generate h
  have hincludes : ∀ path ∈ p.filesOf "includes/*.jinja", Listed "includes" "jinja" path :=
    fun path => ProjectFolder.listed_of_includes hplain (hread _ (by decide))
  have hdefinitions : ∀ folder ∈ ["definitions", "models"],
      ∀ extension ∈ DefinitionFiles.current.extensions,
      ∀ path ∈ p.filesOf (folder ++ "/**/*." ++ extension), Listed folder extension path :=
    fun _ hfolder _ hextension _ => listed_of_read hplain hread hfolder hextension
  have hother : ∀ folder ∈ ["definitions", "models"], (folder == "includes") = false := by decide
  rw [generate_of_forall hread] at h
  obtain rfl := Except.ok.inj h
  dsimp only
  have hreadLegacy : ∀ pattern ∈ includePatterns ++ DefinitionFiles.legacy.patterns,
      p.filesMatching pattern = .ok (p.filesOf pattern) := fun pattern hpattern =>
    hread pattern ((List.mem_append.1 hpattern).elim (List.mem_append_left _)
      fun hp => List.mem_append_right _ (patterns_legacy_subset hp))
  rw [generate_of_forall hreadLegacy]
  refine congrArg Except.ok (ofPaths_eq ?_ ?_ ?_).symm
  -- Listed paths are given as the index writes them.
  · intro path hpath
    simp only [List.mem_filter, List.mem_append, mem_orderedPaths,
      ProjectFolder.mem_flatMap_patterns] at hpath
    obtain ⟨hpath | ⟨folder, hfolder, extension, hextension, hpath⟩, -⟩ := hpath
    · exact (hincludes path hpath).given_eq
    · exact (hdefinitions folder hfolder extension hextension path hpath).given_eq
  -- Only what was found as an include is taken for one.
  · intro path
    simp only [List.mem_filter, List.mem_append, mem_orderedPaths,
      ProjectFolder.mem_flatMap_patterns]
    constructor
    · rintro ⟨⟨hpath | ⟨folder, hfolder, extension, hextension, hpath⟩, -⟩, hinclude⟩
      · exact hpath
      · have hlisted := hdefinitions folder hfolder extension hextension path hpath
        rw [hlisted.isInclude_iff, hother folder hfolder] at hinclude
        cases hinclude
    · intro hpath
      have hlisted := hincludes path hpath
      exact ⟨⟨.inl hpath, by rw [hlisted.hasEnding_sqlx]; rfl⟩, hlisted.isInclude_iff⟩
  -- What was found as a definition is one, and was found without its extension being `sqlx`.
  · intro path
    simp only [List.mem_filter, List.mem_append, mem_orderedPaths,
      ProjectFolder.mem_flatMap_patterns]
    constructor
    · rintro ⟨⟨hpath | ⟨folder, hfolder, extension, hextension, hpath⟩, hending⟩, hinclude, -⟩
      · rw [(hincludes path hpath).isInclude_iff] at hinclude
        cases hinclude
      · have hlisted := hdefinitions folder hfolder extension hextension path hpath
        rw [hlisted.hasEnding_sqlx, Bool.not_eq_true'] at hending
        exact ⟨folder, hfolder, extension, mem_legacy_extensions.2 ⟨hextension, hending⟩, hpath⟩
    · rintro ⟨folder, hfolder, extension, hextension, hpath⟩
      obtain ⟨hcurrent, hsqlx⟩ := mem_legacy_extensions.1 hextension
      have hlisted := hdefinitions folder hfolder extension hcurrent path hpath
      refine ⟨⟨.inr ⟨folder, hfolder, extension, hcurrent, hpath⟩, ?_⟩, ?_, ?_⟩
      · rw [hlisted.hasEnding_sqlx, hsqlx]
        rfl
      · rw [hlisted.isInclude_iff, hother folder hfolder]
        rfl
      · rw [hlisted.extension_eq]
        exact hcurrent

/-- A discovery that knows nothing of the sectioned dialect finds no file of it. -/
theorem hasEnding_of_generate_legacy (h : generate .legacy p none = .ok index) :
    ∀ path ∈ index.definitions, Sql.hasEnding ".sqlx" path = false := by
  intro path hpath
  have hread := filesMatching_of_generate h
  rw [generate_of_forall hread] at h
  obtain rfl := Except.ok.inj h
  simp only [mem_orderedPaths, ProjectFolder.mem_flatMap_patterns] at hpath
  obtain ⟨folder, hfolder, extension, hextension, hpath⟩ := hpath
  rw [(listed_of_read hplain hread hfolder hextension hpath).hasEnding_sqlx]
  exact (mem_legacy_extensions.1 hextension).2

end

end ProjectIndex

end SqlWorkflow
