import SqlWorkflow.Proofs.Sql.Lossless
import SqlWorkflow.Sql.Sections
import Mathlib.Data.List.TakeWhile

/-!
# What opens a section

A section begins with its keyword and a brace, with nothing but blanks between them; the section of
an input has a name in quotes there, after at least one blank.  The scan of a file takes nothing
else for the opening of a section (`exists_opening_of_section?`).  So every section of a file of the
sectioned dialect has such an opening, and the sort of body that belongs to its keyword; and there
are no code blocks in such a file (`isSectioned_of_lex`).

The name of an input is looked for once more in the opening when the file is taken apart, and it is
always found there (`Opening.inputLabel?_eq`).

- **§1** Openings and the names in them.
- **§2** What the scans take for an opening.
- **§3** The openings in a whole file.
-/

namespace SqlWorkflow.Sql

variable {keyword : Keyword} {name? : Option (List Char)} {prev : Option Char}
  {cs name label opening rest : List Char} {node : Node} {nodes : List Node}

/-! ## §1 Openings -/

/-- The text opens a section of the keyword, and an input of the given name. -/
inductive Opening : Keyword → Option (List Char) → List Char → Prop where
  /-- The keyword and the brace. -/
  | plain {keyword : Keyword} {blanks : List Char} (hkeyword : keyword ≠ .sql .input)
    (hblanks : ∀ c ∈ blanks, Text.isBlank c) :
    Opening keyword none (keyword.text.toList ++ (blanks ++ ['\x7b']))
  /-- The keyword, the name in quotes and the brace. -/
  | input {before name after : List Char} (hbefore : ∀ c ∈ before, Text.isBlank c)
    (hapart : before ≠ []) (hname : ∀ c ∈ name, isLabelChar c) (hnamed : name ≠ [])
    (hafter : ∀ c ∈ after, Text.isBlank c) :
    Opening (.sql .input) (some name)
      ("input".toList ++ (before ++ '"' :: (name ++ '"' :: (after ++ ['\x7b']))))

namespace Opening

/-- An opening starts with the keyword. -/
theorem isPrefix (h : Opening keyword name? opening) : keyword.text.toList <+: opening := by
  cases h with
  | plain => exact List.prefix_append _ _
  | input => exact List.prefix_append _ _

/-- The section of an input has a name, which is a label. -/
theorem exists_name (h : Opening (.sql .input) name? opening) :
    ∃ name, name? = some name ∧ name ≠ [] ∧ ∀ c ∈ name, isLabelChar c := by
  cases h with
  | plain hkeyword => exact absurd rfl hkeyword
  | input _ _ hname hnamed _ => exact ⟨_, rfl, hnamed, hname⟩

/-- The name of an input is the first thing in quotes. -/
theorem inputLabel?_eq (h : Opening (.sql .input) (some name) opening) :
    inputLabel? opening = some name := by
  cases h with
  | @input before _ after hbefore _ hname _ _ =>
    -- Neither the keyword nor the blanks after it nor the name hold a quote.
    have hquote : Text.isBlank '"' = false ∧ isLabelChar '"' = false := by decide
    have hlead : '"' ∉ "input".toList ++ before := by
      rw [List.mem_append, not_or]
      exact ⟨by decide, fun hmem => absurd (hbefore _ hmem) (by simp [hquote.1])⟩
    have hinside : '"' ∉ name := fun hmem => absurd (hname _ hmem) (by simp [hquote.2])
    rw [inputLabel?, ← List.append_assoc, Text.dropWhile_append_cons hlead]
    simp [Text.takeWhile_append_cons hinside]

end Opening

/-! ## §2 Scans -/

/-- A label is a name in quotes after at least one blank. -/
theorem exists_of_label? (h : label? cs = some (label, rest)) :
    ∃ before name, label = before ++ '"' :: (name ++ ['"']) ∧ (∀ c ∈ before, Text.isBlank c) ∧
      before ≠ [] ∧ (∀ c ∈ name, isLabelChar c) ∧ name ≠ [] := by
  simp only [label?] at h
  split at h
  · split at h
    · split at h
      · cases h
      · next hne =>
        cases h
        simp only [Bool.or_eq_true, List.isEmpty_iff, not_or] at hne
        exact ⟨_, _, by simp, fun _ => List.mem_takeWhile_imp, hne.1,
          fun _ => List.mem_takeWhile_imp, hne.2⟩
    · cases h
  · cases h

/-- What is taken for the opening of a section is one. -/
theorem exists_opening_of_opening? (h : opening? keyword cs = some (opening, rest)) :
    ∃ name?, Opening keyword name? opening := by
  simp only [opening?, Option.bind_eq_bind, Option.bind_eq_some_iff] at h
  obtain ⟨_, -, ⟨label, afterLabel⟩, hlabel, h⟩ := h
  split at h
  · cases h
    have hblanks : ∀ c ∈ afterLabel.takeWhile Text.isBlank, Text.isBlank c :=
      fun _ => List.mem_takeWhile_imp
    -- Inputs must have a name, and other sections have none.
    unfold labelFor? at hlabel
    split at hlabel
    · next hkeyword =>
      subst hkeyword
      obtain ⟨before, name, rfl, hbefore, hapart, hname, hnamed⟩ := exists_of_label? hlabel
      refine ⟨some name, ?_⟩
      simpa [Keyword.text] using Opening.input hbefore hapart hname hnamed hblanks
    · next hkeyword =>
      cases hlabel
      refine ⟨none, ?_⟩
      simpa using Opening.plain hkeyword hblanks
  · cases h

theorem exists_opening_of_section? (h : section? prev cs = some (keyword, opening, rest)) :
    ∃ name?, Opening keyword name? opening := by
  unfold section? at h
  split at h
  · cases h
  · obtain ⟨keyword', -, hfound⟩ := List.exists_of_findSome?_eq_some h
    obtain ⟨⟨opening', rest'⟩, hopening, heq⟩ := Option.map_eq_some_iff.1 hfound
    cases heq
    exact exists_opening_of_opening? hopening

/-! ## §3 Files -/

/-- The keywords of code belong to code, and those of SQL to SQL. -/
inductive SectionBody.BelongsTo : SectionBody → Keyword → Prop where
  | code (s : String) (kind : CodeSection) : BelongsTo (.code s) (.code kind)
  | sql (fragments : List Fragment) (kind : SqlSection) : BelongsTo (.sql fragments) (.sql kind)

/-- The node is one that a file of the sectioned dialect can have. -/
def Node.IsSectioned : Node → Prop
  | .fragment _ => True
  | .codeBlock _ _ _ => False
  | .braced keyword opening body =>
    body.BelongsTo keyword ∧ ∃ name?, Opening keyword name? opening.toList

theorem isSectioned_of_scanSectionOf {start : List Char}
    (hopening : ∃ name?, Opening keyword name? opening)
    (h : scanSectionOf keyword start opening cs = .ok (node, rest)) : node.IsSectioned := by
  cases keyword with
  | code kind =>
    simp only [scanSectionOf] at h
    split at h
    · cases h
      exact ⟨.code _ kind, by simpa using hopening⟩
    · cases h
  | sql kind =>
    simp only [scanSectionOf] at h
    split at h
    · cases h
    · cases h
    · cases h
      exact ⟨.sql _ kind, by simpa using hopening⟩

theorem isSectioned_of_scanNode {c : Char} (h : scanNode .sectioned prev c cs = .ok (node, rest)) :
    node.IsSectioned := by
  simp only [scanNode] at h
  split at h
  · cases h
  · split at h
    · next hsection =>
      exact isSectioned_of_scanSectionOf (exists_opening_of_section? hsection) h
    · obtain ⟨_, -, heq⟩ := exists_of_map_eq_ok h
      cases heq
      trivial

theorem isSectioned_of_scanFile (h : scanFile .sectioned prev cs = .ok nodes) :
    ∀ node ∈ nodes, node.IsSectioned := by
  -- The induction is over the scan of any dialect, so which one it is has to be kept.
  generalize hdialect : Dialect.sectioned = dialect at h
  fun_induction scanFile dialect prev cs generalizing nodes with
  | case1 =>
    cases h
    exact fun _ hnode => absurd hnode List.not_mem_nil
  | case2 => cases h
  | case3 prev c cs node rest hn ih =>
    obtain ⟨nodes', hrest, heq⟩ := exists_of_map_eq_ok h
    cases heq
    rw [← hdialect] at hn
    exact List.forall_mem_cons.2 ⟨isSectioned_of_scanNode hn, ih hrest⟩

/-- A file of the sectioned dialect has sections with openings, of code where the keyword says so
and of SQL otherwise, and no code blocks. -/
theorem isSectioned_of_lex {source : String} {tree : Tree}
    (h : lex .sectioned source = .ok tree) : ∀ node ∈ tree.nodes, node.IsSectioned :=
  isSectioned_of_scanFile (scanFile_of_lex h).1

/-- So no section of such a file holds code in the place of SQL, or SQL in the place of code. -/
theorem belongsTo_of_lex {source opening : String} {tree : Tree} {body : SectionBody}
    (h : lex .sectioned source = .ok tree) (hnode : .braced keyword opening body ∈ tree.nodes) :
    body.BelongsTo keyword :=
  (isSectioned_of_lex h _ hnode).1

end SqlWorkflow.Sql
