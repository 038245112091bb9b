import SqlWorkflow.Schedule.Email

/-!
# What an email address is

An address is a local part and a domain with an `@` between them.  Both are atoms with dots between
them, the domain at least two, and the local part may instead be anything on one line between
double quotes.  So the local part may hold `@`, dots and quotes itself, but the domain cannot: there
is only one way to take an address apart (`Addressed.unique`), and cutting the text at its last `@`
finds it (`isValid_iff_addressed`).

- **§1** Atoms.
- **§2** Local parts and domains.
- **§3** Addresses.
-/

namespace SqlWorkflow.Email

/-! ## §1 Atoms -/

/-- A character that is neither blank nor one of the marks that addresses are made with. -/
def AtomChar (c : Char) : Prop :=
  Text.isBlank c = false ∧ c ∉ ['<', '>', '(', ')', '[', ']', '.', ',', ';', ':', '@', '"']

/-- One or more such characters. -/
def Atom (cs : List Char) : Prop := cs ≠ [] ∧ ∀ c ∈ cs, AtomChar c

theorem isAtomChar_iff {c : Char} : isAtomChar c = true ↔ AtomChar c := by
  have hmarks : "<>()[].,;:@\"".toList =
      ['<', '>', '(', ')', '[', ']', '.', ',', ';', ':', '@', '"'] := by decide
  rw [isAtomChar, hmarks, Bool.and_eq_true, Bool.not_eq_true', Bool.not_eq_true', AtomChar,
    List.contains_eq_mem, decide_eq_false_iff_not]

theorem isAtom_iff {cs : List Char} : isAtom cs = true ↔ Atom cs := by
  simp [isAtom, Atom, isAtomChar_iff]

/-- An atom holds none of the marks. -/
theorem Atom.not_mem {cs : List Char} (h : Atom cs) {c : Char} (hc : ¬ AtomChar c) : c ∉ cs :=
  fun hmem => hc (h.2 c hmem)

theorem not_atomChar_dot : ¬ AtomChar '.' := by simp [AtomChar]

theorem not_atomChar_at : ¬ AtomChar '@' := by simp [AtomChar]

/-! ## §2 Local parts and domains -/

/-- The text before the `@` of an address. -/
inductive LocalPart : List Char → Prop
  /-- Atoms with dots between them. -/
  | dotted {atoms : List (List Char)} (hne : atoms ≠ []) (hatoms : ∀ atom ∈ atoms, Atom atom) :
      LocalPart (Text.joinAt '.' atoms)
  /-- Anything on one line, between double quotes. -/
  | quoted {inner : List Char} (hne : inner ≠ []) (hline : '\n' ∉ inner) :
      LocalPart ('"' :: (inner ++ ['"']))

/-- The text after the `@` of an address: two or more atoms with dots between them, the last of
which has at least two characters. -/
inductive Domain : List Char → Prop
  | dotted {atoms : List (List Char)} {last : List Char} (hne : atoms ≠ [])
      (hatoms : ∀ atom ∈ atoms, Atom atom) (hlast : Atom last) (hlength : 2 ≤ last.length) :
      Domain (Text.joinAt '.' (atoms ++ [last]))

/-- A text is quoted if it stands between two quotes and what is between them fits on a line. -/
theorem isQuoted_iff {cs : List Char} :
    isQuoted cs = true ↔ ∃ inner, inner ≠ [] ∧ '\n' ∉ inner ∧ cs = '"' :: (inner ++ ['"']) := by
  constructor
  · intro h
    unfold isQuoted at h
    split at h
    case h_2 => cases h
    case h_1 rest =>
      split at h
      case h_2 => cases h
      case h_1 inner hreverse =>
        have hrest : rest = inner.reverse ++ ['"'] := by
          rw [← List.reverse_reverse rest, hreverse, List.reverse_cons]
        refine ⟨inner.reverse, ?_, ?_, by rw [hrest]⟩ <;> simp_all
  · rintro ⟨inner, hne, hline, rfl⟩
    simp [isQuoted, hne, hline]

theorem isLocal_iff {cs : List Char} : isLocal cs = true ↔ LocalPart cs := by
  have hdots : (Text.splitAt '.' cs).all isAtom = true ↔
      ∃ atoms, atoms ≠ [] ∧ (∀ atom ∈ atoms, Atom atom) ∧ cs = Text.joinAt '.' atoms := by
    rw [List.all_eq_true, ← Text.forall_mem_splitAt_iff fun _ h => h.not_mem not_atomChar_dot]
    exact forall₂_congr fun _ _ => isAtom_iff
  rw [isLocal, Bool.or_eq_true, hdots, isQuoted_iff]
  constructor
  · rintro (⟨atoms, hne, hatoms, rfl⟩ | ⟨inner, hne, hline, rfl⟩)
    · exact .dotted hne hatoms
    · exact .quoted hne hline
  · intro h
    cases h with
    | dotted hne hatoms => exact .inl ⟨_, hne, hatoms, rfl⟩
    | quoted hne hline => exact .inr ⟨_, hne, hline, rfl⟩

theorem isDomain_iff {cs : List Char} : isDomain cs = true ↔ Domain cs := by
  simp only [isDomain, Bool.and_eq_true, List.all_eq_true, isAtom_iff, decide_eq_true_eq]
  constructor
  · rintro ⟨⟨hatoms, hlength⟩, hlast⟩
    -- The length of the last atom is checked apart, so it is taken from the others.
    obtain hnil | ⟨atoms, last, hparts⟩ := (Text.splitAt '.' cs).eq_nil_or_concat
    · exact absurd hnil (Text.splitAt_ne_nil '.' cs)
    · rw [List.concat_eq_append] at hparts
      rw [hparts] at hatoms hlength hlast
      have hne : atoms ≠ [] := by
        rintro rfl
        simp at hlength
      rw [← Text.joinAt_splitAt '.' cs, hparts]
      refine .dotted hne (fun atom hatom => hatoms atom (List.mem_append_left _ hatom))
        (hatoms last (by simp)) (by simpa using hlast)
  · intro h
    cases h with
    | @dotted atoms last hne hatoms hlast hlength =>
      have hall : ∀ atom ∈ atoms ++ [last], Atom atom := by
        simpa [or_imp, forall_and] using ⟨hatoms, hlast⟩
      have hsplit : Text.splitAt '.' (Text.joinAt '.' (atoms ++ [last])) = atoms ++ [last] :=
        Text.splitAt_joinAt (by simp) fun atom hatom => (hall atom hatom).not_mem not_atomChar_dot
      have hmore := List.length_pos_iff.2 hne
      rw [hsplit]
      exact ⟨⟨hall, by simp; omega⟩, by simpa using hlength⟩

/-- A domain holds no `@`, since neither its atoms nor the dots between them do. -/
theorem Domain.at_not_mem {cs : List Char} (h : Domain cs) : '@' ∉ cs := by
  cases h with
  | dotted _ hatoms hlast _ =>
    intro hmem
    obtain heq | ⟨atom, hatom, hmem⟩ := Text.mem_of_mem_joinAt hmem
    · exact absurd heq (by decide)
    · rcases List.mem_append.1 hatom with hatom | hatom
      · exact (hatoms atom hatom).not_mem not_atomChar_at hmem
      · exact (List.mem_singleton.1 hatom ▸ hlast).not_mem not_atomChar_at hmem

/-! ## §3 Addresses -/

/-- The text is the two parts with an `@` between them. -/
structure Addressed (cs localPart domain : List Char) : Prop where
  eq_append : cs = localPart ++ '@' :: domain
  localPart : LocalPart localPart
  domain : Domain domain

/-- A text is cut at its last `@`. -/
theorem parts?_eq_some_iff {cs localPart domain : List Char} :
    parts? cs = some (localPart, domain) ↔ cs = localPart ++ '@' :: domain ∧ '@' ∉ domain := by
  constructor
  · intro h
    unfold parts? at h
    split at h
    case h_2 => cases h
    case h_1 last before earlier hreverse =>
      cases h
      -- The last part is the domain, and the others make up the local part.
      have hsplit : Text.splitAt '@' cs = (before :: earlier).reverse ++ [domain] := by
        rw [← List.reverse_reverse (Text.splitAt '@' cs), hreverse, List.reverse_cons]
      refine ⟨?_, Text.not_mem_of_mem_splitAt (by rw [hsplit]; simp)⟩
      rw [← Text.joinAt_concat (by simp), ← hsplit, Text.joinAt_splitAt]
  · rintro ⟨rfl, hdomain⟩
    rw [parts?, Text.splitAt_append_cons, Text.splitAt_of_not_mem hdomain, List.reverse_concat]
    cases hreverse : (Text.splitAt '@' localPart).reverse with
    | nil => simp at hreverse
    | cons before earlier =>
      dsimp only
      rw [← hreverse, List.reverse_reverse, Text.joinAt_splitAt]

/-- An address can be taken apart in one way only. -/
theorem Addressed.unique {cs localPart localPart' domain domain' : List Char}
    (h : Addressed cs localPart domain) (h' : Addressed cs localPart' domain') :
    localPart = localPart' ∧ domain = domain' := by
  have hparts := parts?_eq_some_iff.2 ⟨h.eq_append, h.domain.at_not_mem⟩
  have hparts' := parts?_eq_some_iff.2 ⟨h'.eq_append, h'.domain.at_not_mem⟩
  rw [hparts] at hparts'
  simpa using hparts'

/-- A text is accepted if and only if it is a local part and a domain with an `@` between them. -/
theorem isValid_iff_addressed (text : String) :
    isValid text = true ↔ ∃ localPart domain, Addressed text.toList localPart domain := by
  rw [isValid]
  constructor
  · intro h
    -- Only the last `@` is tried, which is enough since no domain holds one.
    split at h
    case h_1 localPart domain hparts =>
      rw [Bool.and_eq_true, isLocal_iff, isDomain_iff] at h
      exact ⟨localPart, domain, (parts?_eq_some_iff.1 hparts).1, h.1, h.2⟩
    case h_2 => cases h
  · rintro ⟨localPart, domain, haddressed⟩
    have hparts := parts?_eq_some_iff.2 ⟨haddressed.eq_append, haddressed.domain.at_not_mem⟩
    rw [hparts]
    dsimp only
    rw [Bool.and_eq_true, isLocal_iff, isDomain_iff]
    exact ⟨haddressed.localPart, haddressed.domain⟩

/-- A quoted local part may hold what would otherwise end it. -/
example : isValid "\"a\"@\"b\"@example.org" = true := by decide +kernel

end SqlWorkflow.Email
