import SqlWorkflow.Proofs.Project.Discovery

/-!
# Lists of files

The index of files that are named one by one depends only on which files are named: not on the order
of the names, on how often each is named, or on which of the separators are written as `\`
(`ofPaths_eq_of_respelled`).  Both of its lists are in strict order (`pairwise_includes_ofPaths`,
`pairwise_definitions_ofPaths`).

The separators of the `./` at the start of a path are the exception.  They are looked at before
`\` is read as a separator, so `.\` stays where `./` goes, and the index lists `./`.  Two spellings
of a path are listed as the same if and only if the same number of `./` goes from their starts
(`given_eq_given_iff`), and an index of its own paths is the same index if and only if none of its
paths starts with `./` (`ofPaths_all_iff`).

- **§1** How a path is listed.
- **§2** The index of some paths.
- **§3** The index of the paths of an index.
-/

namespace SqlWorkflow

/-! ## §1 Paths -/

theorem withoutHere_isSuffix (cs : List Char) : withoutHere cs <:+ cs := by
  fun_induction withoutHere cs with
  | case1 rest ih => exact ih.trans ⟨['.', '/'], rfl⟩
  | case2 => exact List.suffix_refl _

/-- Every `./` at the start goes. -/
theorem not_isPrefix_withoutHere (cs : List Char) : ¬ ['.', '/'] <+: withoutHere cs := by
  fun_induction withoutHere cs with
  | case1 rest ih => exact ih
  | case2 cs hother =>
    rintro ⟨rest, rfl⟩
    exact hother rest rfl

theorem withoutHere_eq_self {cs : List Char} (h : ¬ ['.', '/'] <+: cs) : withoutHere cs = cs := by
  unfold withoutHere
  split
  · exact absurd ⟨_, rfl⟩ h
  · rfl

namespace ProjectIndex

variable {path path' : String} {paths paths' : List String} {files : DefinitionFiles}

theorem toList_given (path : String) :
    (given path).toList = Text.replaceChar '\\' ['/'] (withoutHere path.toList) := by
  simp [given, Path.normalize]

/-- Two spellings of a path are listed as the same if and only if as much goes from their starts. -/
theorem given_eq_given_iff (h : Path.normalize path = Path.normalize path') :
    given path = given path' ↔
      (withoutHere path.toList).length = (withoutHere path'.toList).length := by
  rw [← String.toList_inj, toList_given, toList_given]
  simp only [Path.normalize, String.ofList_inj, Text.replaceChar_singleton] at h ⊢
  have hlength : path.toList.length = path'.toList.length := by
    simpa using congrArg List.length h
  constructor
  · intro heq
    simpa using congrArg List.length heq
  · -- Both are what is left of the same path, as much of it.
    intro heq
    rw [List.suffix_iff_eq_drop.1 (withoutHere_isSuffix path.toList),
      List.suffix_iff_eq_drop.1 (withoutHere_isSuffix path'.toList), List.map_drop,
      List.map_drop, h, heq, hlength]

/-- A path as it is listed is listed as itself unless it starts with `./`. -/
theorem given_eq_self_iff (h : '\\' ∉ path.toList) :
    given path = path ↔ ¬ ['.', '/'] <+: path.toList := by
  have hback : '\\' ∉ withoutHere path.toList :=
    fun hmem => h ((withoutHere_isSuffix path.toList).subset hmem)
  rw [← String.toList_inj, toList_given, Text.replaceChar_of_not_mem hback]
  constructor
  · intro heq
    rw [← heq]
    exact not_isPrefix_withoutHere _
  · exact withoutHere_eq_self

/-! ## §2 Indices -/

/-- Two spellings of a path: separators may differ, but not in the `./` at the start. -/
def Respelled (path path' : String) : Prop :=
  Path.normalize path = Path.normalize path' ∧
    (withoutHere path.toList).length = (withoutHere path'.toList).length

/-- The index depends only on how the paths are listed. -/
theorem ofPaths_congr (h : ∀ path, path ∈ paths.map given ↔ path ∈ paths'.map given) :
    ofPaths files paths = ofPaths files paths' := by
  have hordered : ∀ p : String → Bool,
      orderedPaths ((paths.map given).filter p) = orderedPaths ((paths'.map given).filter p) :=
    fun p => orderedPaths_congr fun path => by rw [List.mem_filter, List.mem_filter, h]
  simp only [ofPaths, hordered]

/-- Lists that name the same files in any order, any number of times and in any spelling have the
same index. -/
theorem ofPaths_eq_of_respelled (h : ∀ path ∈ paths, ∃ path' ∈ paths', Respelled path path')
    (h' : ∀ path' ∈ paths', ∃ path ∈ paths, Respelled path path') :
    ofPaths files paths = ofPaths files paths' := by
  refine ofPaths_congr fun listed => ?_
  simp only [List.mem_map]
  constructor
  · rintro ⟨path, hpath, rfl⟩
    obtain ⟨path', hpath', hrespelled⟩ := h path hpath
    exact ⟨path', hpath', ((given_eq_given_iff hrespelled.1).2 hrespelled.2).symm⟩
  · rintro ⟨path', hpath', rfl⟩
    obtain ⟨path, hpath, hrespelled⟩ := h' path' hpath'
    exact ⟨path, hpath, (given_eq_given_iff hrespelled.1).2 hrespelled.2⟩

/-- The lists of an index are in strict order. -/
theorem pairwise_orderedPaths (paths : List String) : (orderedPaths paths).Pairwise (· < ·) :=
  List.pairwise_map.2 (Dict.ofList _).sorted

theorem pairwise_includes_ofPaths (files : DefinitionFiles) (paths : List String) :
    (ofPaths files paths).includes.Pairwise (· < ·) := pairwise_orderedPaths _

theorem pairwise_definitions_ofPaths (files : DefinitionFiles) (paths : List String) :
    (ofPaths files paths).definitions.Pairwise (· < ·) := pairwise_orderedPaths _

/-- A `.\` at the start stays, and what is not in the folder of includes then is a definition. -/
example : ofPaths .current [".\\includes\\m.jinja", ".\\definitions\\a.sqlx"] =
    { includes := [], definitions := ["./definitions/a.sqlx", "./includes/m.jinja"] } := by
  decide +kernel

/-! ## §3 Indices of indices -/

/-- All paths of an index. -/
def all (index : ProjectIndex) : List String := index.includes ++ index.definitions

theorem mem_includes_ofPaths : path ∈ (ofPaths files paths).includes ↔
    path ∈ paths.map given ∧ isInclude path = true := by
  simp only [ofPaths, mem_orderedPaths, List.mem_filter]

theorem mem_definitions_ofPaths : path ∈ (ofPaths files paths).definitions ↔
    path ∈ paths.map given ∧ isInclude path = false ∧ Path.extension path ∈ files.extensions := by
  simp only [ofPaths, mem_orderedPaths, List.mem_filter, Bool.and_eq_true, Bool.not_eq_true',
    List.contains_iff_mem]

/-- The paths of an index are listed as some paths are. -/
theorem mem_map_given_of_mem_all (h : path ∈ (ofPaths files paths).all) :
    path ∈ paths.map given :=
  (List.mem_append.1 h).elim (fun hpath => (mem_includes_ofPaths.1 hpath).1)
    fun hpath => (mem_definitions_ofPaths.1 hpath).1

theorem backslash_not_mem_given (path : String) : '\\' ∉ (given path).toList := by
  rw [toList_given]
  exact Text.not_mem_replaceChar (by decide)

/-- An index is the index of its own paths if and only if none of them starts with `./`. -/
theorem ofPaths_all_iff (files : DefinitionFiles) (paths : List String) :
    ofPaths files (ofPaths files paths).all = ofPaths files paths ↔
      ∀ path ∈ (ofPaths files paths).all, ¬ ['.', '/'] <+: path.toList := by
  constructor
  · -- What is listed once more has lost the `./` at its start.
    intro h path hpath
    rw [← h] at hpath
    obtain ⟨listed, hlisted, rfl⟩ := List.mem_map.1 (mem_map_given_of_mem_all hpath)
    obtain ⟨first, -, rfl⟩ := List.mem_map.1 (mem_map_given_of_mem_all hlisted)
    have hback : '\\' ∉ withoutHere (given first).toList := fun hmem =>
      backslash_not_mem_given first ((withoutHere_isSuffix _).subset hmem)
    rw [toList_given, Text.replaceChar_of_not_mem hback]
    exact not_isPrefix_withoutHere _
  · intro h
    have hgiven : ∀ path ∈ (ofPaths files paths).all, given path = path := by
      intro path hpath
      obtain ⟨path', -, rfl⟩ := List.mem_map.1 (mem_map_given_of_mem_all hpath)
      exact (given_eq_self_iff (backslash_not_mem_given path')).2 (h _ hpath)
    have hsame : ∀ paths : List String, orderedPaths (orderedPaths paths) = orderedPaths paths :=
      fun paths => orderedPaths_congr fun path => mem_orderedPaths
    have hown : ofPaths files (ofPaths files paths).all =
        { includes := orderedPaths (ofPaths files paths).includes
          definitions := orderedPaths (ofPaths files paths).definitions } := by
      -- Neither list holds anything that belongs to the other.
      refine ofPaths_eq hgiven (fun path => ?_) fun path => ?_
      · simp only [all, List.mem_append, mem_includes_ofPaths, mem_definitions_ofPaths]
        grind
      · simp only [all, List.mem_append, mem_includes_ofPaths, mem_definitions_ofPaths]
        grind
    rw [hown]
    exact congrArg₂ ProjectIndex.mk (hsame _) (hsame _)

end ProjectIndex

end SqlWorkflow
