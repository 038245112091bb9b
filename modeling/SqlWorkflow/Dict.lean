/-!
# Dictionaries

A dictionary holds one value for each of finitely many names, in the order of the names.  Two
dictionaries with the same entries are therefore equal, and whatever is written out of one is
written in one order only.

Main statements: inserting keeps the order (`insertEntry_sorted`), and a look-up after an
insertion sees the new value under its own name (`lookupEntry_insertEntry_self`) and the old
values elsewhere (`lookupEntry_insertEntry_ne`).  Extending a dictionary twice by the entries of
another is extending it once (`Dict.extend_extend_self`).
-/

namespace SqlWorkflow

universe u v

variable {α : Type u} {β : Type v}

/-! ## §1 Entry lists -/

/-- The entries are in strictly increasing order of their names. -/
def SortedEntries (entries : List (String × α)) : Prop :=
  entries.Pairwise fun a b => a.1 < b.1

/-- Puts an entry in its place, instead of the one with the same name if there is one. -/
def insertEntry (name : String) (value : α) : List (String × α) → List (String × α)
  | [] => [(name, value)]
  | entry :: rest =>
    if name < entry.1 then (name, value) :: entry :: rest
    else if name = entry.1 then (name, value) :: rest
    else entry :: insertEntry name value rest

/-- The value under a name. -/
def lookupEntry (name : String) : List (String × α) → Option α
  | [] => none
  | entry :: rest => if name = entry.1 then some entry.2 else lookupEntry name rest

theorem mem_insertEntry {name : String} {value : α} {entries : List (String × α)}
    {entry : String × α} (h : entry ∈ insertEntry name value entries) :
    entry = (name, value) ∨ entry ∈ entries := by
  induction entries with
  | nil => simpa [insertEntry] using h
  | cons first rest ih =>
    rw [insertEntry] at h
    split at h
    · simpa using h
    · split at h
      · rcases List.mem_cons.1 h with h | h
        · exact .inl h
        · exact .inr (List.mem_cons_of_mem _ h)
      · rcases List.mem_cons.1 h with h | h
        · exact .inr (h ▸ List.mem_cons_self)
        · exact (ih h).imp_right (List.mem_cons_of_mem _)

theorem insertEntry_sorted (name : String) (value : α) {entries : List (String × α)}
    (h : SortedEntries entries) : SortedEntries (insertEntry name value entries) := by
  induction entries with
  | nil => exact List.pairwise_singleton _ _
  | cons first rest ih =>
    have hfirst : ∀ entry ∈ rest, first.1 < entry.1 :=
      fun _ hentry => List.rel_of_pairwise_cons h hentry
    rw [insertEntry]
    split
    · next hlt =>
      refine List.Pairwise.cons (fun entry hentry => ?_) h
      rcases List.mem_cons.1 hentry with rfl | hentry
      · exact hlt
      · exact String.lt_trans hlt (hfirst _ hentry)
    · next hnlt =>
      split
      · next heq => exact List.Pairwise.cons (fun entry hentry => heq ▸ hfirst _ hentry) h.of_cons
      · next hne =>
        refine List.Pairwise.cons (fun entry hentry => ?_) (ih h.of_cons)
        rcases mem_insertEntry hentry with rfl | hentry
        · have := String.not_lt.1 hnlt
          grind
        · exact hfirst _ hentry

theorem lookupEntry_insertEntry_self (name : String) (value : α) (entries : List (String × α)) :
    lookupEntry name (insertEntry name value entries) = some value := by
  induction entries with
  | nil => simp [insertEntry, lookupEntry]
  | cons first rest ih =>
    rw [insertEntry]
    split
    · simp [lookupEntry]
    · split
      · simp [lookupEntry]
      · next hne => simp [lookupEntry, hne, ih]

theorem lookupEntry_insertEntry_ne {name other : String} (hne : other ≠ name) (value : α)
    (entries : List (String × α)) :
    lookupEntry other (insertEntry name value entries) = lookupEntry other entries := by
  induction entries with
  | nil => simp [insertEntry, lookupEntry, hne]
  | cons first rest ih =>
    rw [insertEntry]
    split
    · simp [lookupEntry, hne]
    · split
      · next heq => simp [lookupEntry, hne, ← heq]
      · simp [lookupEntry, ih]

/-- An entry list in order, the last of several entries with one name being kept. -/
def sortEntries (entries : List (String × α)) : List (String × α) :=
  entries.foldl (fun acc entry => insertEntry entry.1 entry.2 acc) []

theorem foldl_insertEntry_sorted (entries : List (String × α)) {start : List (String × α)}
    (h : SortedEntries start) :
    SortedEntries (entries.foldl (fun acc entry => insertEntry entry.1 entry.2 acc) start) := by
  induction entries generalizing start with
  | nil => exact h
  | cons entry rest ih => exact ih (insertEntry_sorted _ _ h)

/-- Appending an entry with a greater name is what inserting it does. -/
theorem insertEntry_append {name : String} {value : α} {entries : List (String × α)}
    (h : ∀ entry ∈ entries, entry.1 < name) :
    insertEntry name value entries = entries ++ [(name, value)] := by
  induction entries with
  | nil => rfl
  | cons first rest ih =>
    have hlt := h first List.mem_cons_self
    have hrest := ih fun entry hentry => h entry (List.mem_cons_of_mem _ hentry)
    have hne : name ≠ first.1 := fun heq => String.lt_irrefl _ (heq ▸ hlt)
    simp [insertEntry, String.lt_asymm hlt, hne, hrest]

/-- A list already in order is sorted to itself. -/
theorem sortEntries_of_sorted {entries : List (String × α)} (h : SortedEntries entries) :
    sortEntries entries = entries := by
  have key : ∀ (start rest : List (String × α)), SortedEntries (start ++ rest) →
      rest.foldl (fun acc entry => insertEntry entry.1 entry.2 acc) start = start ++ rest := by
    intro start rest
    induction rest generalizing start with
    | nil => simp
    | cons entry rest ih =>
      intro hsorted
      have hall := (List.pairwise_append.1 hsorted).2.2
      rw [List.foldl_cons, insertEntry_append fun e he => hall e he entry List.mem_cons_self]
      have hcons : start ++ entry :: rest = (start ++ [(entry.1, entry.2)]) ++ rest := by simp
      rw [hcons] at hsorted ⊢
      exact ih _ hsorted
  simpa [sortEntries] using key [] entries (by simpa using h)

theorem mem_insertEntry_self (name : String) (value : α) (entries : List (String × α)) :
    (name, value) ∈ insertEntry name value entries := by
  induction entries with
  | nil => exact List.mem_singleton_self _
  | cons first rest ih =>
    rw [insertEntry]
    split
    · exact List.mem_cons_self
    · split
      · exact List.mem_cons_self
      · exact List.mem_cons_of_mem _ ih

theorem mem_insertEntry_of_ne {name : String} {value : α} {entries : List (String × α)}
    {entry : String × α} (hne : entry.1 ≠ name) (h : entry ∈ entries) :
    entry ∈ insertEntry name value entries := by
  induction entries with
  | nil => cases h
  | cons first rest ih =>
    rw [insertEntry]
    split
    · exact List.mem_cons_of_mem _ h
    · split
      · next heq =>
        rcases List.mem_cons.1 h with rfl | h
        · exact absurd heq.symm hne
        · exact List.mem_cons_of_mem _ h
      · rcases List.mem_cons.1 h with rfl | h
        · exact List.mem_cons_self
        · exact List.mem_cons_of_mem _ (ih h)

/-- Inserting an entry that is there already changes nothing. -/
theorem insertEntry_of_mem {name : String} {value : α} {entries : List (String × α)}
    (hsorted : SortedEntries entries) (h : (name, value) ∈ entries) :
    insertEntry name value entries = entries := by
  induction entries with
  | nil => cases h
  | cons first rest ih =>
    rw [insertEntry]
    rcases List.mem_cons.1 h with rfl | h
    · simp
    · have hlt : first.1 < name := List.rel_of_pairwise_cons hsorted h
      have hne : name ≠ first.1 := fun heq => String.lt_irrefl _ (heq ▸ hlt)
      rw [if_neg (String.lt_asymm hlt), if_neg hne, ih hsorted.of_cons h]

/-- After entries in order have been inserted, all of them are there. -/
theorem mem_foldl_insertEntry {entries : List (String × α)} (hsorted : SortedEntries entries)
    {start : List (String × α)} {entry : String × α}
    (h : entry ∈ entries ∨ entry ∈ start ∧ ∀ e ∈ entries, entry.1 ≠ e.1) :
    entry ∈ entries.foldl (fun acc entry => insertEntry entry.1 entry.2 acc) start := by
  induction entries generalizing start with
  | nil =>
    rcases h with h | h
    · cases h
    · exact h.1
  | cons first rest ih =>
    apply ih hsorted.of_cons
    rcases h with h | ⟨hstart, hne⟩
    · rcases List.mem_cons.1 h with rfl | h
      · refine .inr ⟨mem_insertEntry_self _ _ _, fun e he heq => ?_⟩
        exact String.lt_irrefl _ (heq ▸ List.rel_of_pairwise_cons hsorted he)
      · exact .inl h
    · refine .inr ⟨mem_insertEntry_of_ne (hne _ List.mem_cons_self) hstart, fun e he => ?_⟩
      exact hne e (List.mem_cons_of_mem _ he)

theorem mem_of_mem_foldl_insertEntry {items start : List (String × α)} {entry : String × α}
    (h : entry ∈ items.foldl (fun acc entry => insertEntry entry.1 entry.2 acc) start) :
    entry ∈ start ∨ entry ∈ items := by
  induction items generalizing start with
  | nil => exact .inl h
  | cons first rest ih =>
    rcases ih h with hstart | hrest
    · rcases mem_insertEntry hstart with rfl | hstart
      · exact .inr List.mem_cons_self
      · exact .inl hstart
    · exact .inr (List.mem_cons_of_mem _ hrest)

/-- Sorting makes no entries up. -/
theorem mem_of_mem_sortEntries {entries : List (String × α)} {entry : String × α}
    (h : entry ∈ sortEntries entries) : entry ∈ entries :=
  (mem_of_mem_foldl_insertEntry h).resolve_left List.not_mem_nil

theorem sorted_sortEntries (entries : List (String × α)) : SortedEntries (sortEntries entries) :=
  foldl_insertEntry_sorted entries .nil

/-! ## §2 The type -/

/-- Values under names, in the order of the names. -/
structure Dict (α : Type u) where
  entries : List (String × α)
  sorted : SortedEntries entries

namespace Dict

/-- The dictionary without entries. -/
def empty : Dict α := ⟨[], List.Pairwise.nil⟩

instance : Inhabited (Dict α) := ⟨empty⟩

instance : EmptyCollection (Dict α) := ⟨empty⟩

theorem ext {a b : Dict α} (h : a.entries = b.entries) : a = b := by
  cases a; cases b; simpa using h

instance [DecidableEq α] : DecidableEq (Dict α) := fun a b =>
  decidable_of_iff (a.entries = b.entries) ⟨ext, fun h => h ▸ rfl⟩

instance [Repr α] : Repr (Dict α) := ⟨fun d => reprPrec d.entries⟩

/-- Has the dictionary no entry? -/
def isEmpty (d : Dict α) : Bool := d.entries.isEmpty

/-- The names, in order. -/
def keys (d : Dict α) : List String := d.entries.map (·.1)

/-- The value under a name. -/
def get? (d : Dict α) (name : String) : Option α := lookupEntry name d.entries

/-- The dictionary with a value under a name, instead of the old one if there was one. -/
def insert (d : Dict α) (name : String) (value : α) : Dict α :=
  ⟨insertEntry name value d.entries, insertEntry_sorted name value d.sorted⟩

/-- The dictionary with all the entries of a list inserted, from first to last. -/
def extend (d : Dict α) (entries : List (String × α)) : Dict α :=
  ⟨entries.foldl (fun acc entry => insertEntry entry.1 entry.2 acc) d.entries,
    foldl_insertEntry_sorted entries d.sorted⟩

/-- The entries of a list, the last of several with one name being kept. -/
def ofList (entries : List (String × α)) : Dict α := empty.extend entries

@[simp] theorem get?_insert_self (d : Dict α) (name : String) (value : α) :
    (d.insert name value).get? name = some value :=
  lookupEntry_insertEntry_self name value d.entries

theorem get?_insert_ne (d : Dict α) {name other : String} (h : other ≠ name) (value : α) :
    (d.insert name value).get? other = d.get? other :=
  lookupEntry_insertEntry_ne h value d.entries

/-- A dictionary is what its own entries make. -/
theorem ofList_entries (d : Dict α) : ofList d.entries = d :=
  ext (sortEntries_of_sorted d.sorted)

@[simp] theorem extend_nil (d : Dict α) : d.extend [] = d := rfl

theorem extend_extend (d : Dict α) (first second : List (String × α)) :
    (d.extend first).extend second = d.extend (first ++ second) :=
  ext (List.foldl_append ..).symm

/-- Extending by entries that are there already changes nothing. -/
theorem extend_of_forall_mem {d : Dict α} {entries : List (String × α)}
    (h : ∀ entry ∈ entries, entry ∈ d.entries) : d.extend entries = d := by
  apply ext
  show entries.foldl _ d.entries = d.entries
  induction entries with
  | nil => rfl
  | cons entry rest ih =>
    rw [List.foldl_cons, insertEntry_of_mem d.sorted (h _ List.mem_cons_self)]
    exact ih fun e he => h e (List.mem_cons_of_mem _ he)

/-- The entries of a dictionary are inserted once and for all. -/
theorem extend_extend_self (d e : Dict α) :
    (d.extend e.entries).extend e.entries = d.extend e.entries :=
  extend_of_forall_mem fun _ h => mem_foldl_insertEntry e.sorted (.inl h)

end Dict

end SqlWorkflow
