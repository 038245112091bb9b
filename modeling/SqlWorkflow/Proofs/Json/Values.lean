import SqlWorkflow.Proofs.Json.Reading

/-!
# The values of JSON texts

What a text denotes has the members of every object in the order of their names (`Json.Ordered`) and
no more than 127 containers inside one another (`parse?_eq_some`).  So if its numbers are whole, the
compact text of the value denotes the value again (`parse?_compact_of_parse?`), however the first
text was laid out.

- **§1** Ordered values.
- **§2** What a document denotes of which only so much can be read (`of_ofDoc?`).
- **§3** The values of texts.
-/

namespace SqlWorkflow

namespace Json

/-! ## §1 Ordered values -/

mutual

/-- Do the members of every object stand in strictly increasing order of their names? -/
def Ordered : Json → Prop
  | .arr items => AllOrdered items
  | .obj members => SortedEntries members ∧ AllMembersOrdered members
  | _ => True

def AllOrdered : List Json → Prop
  | [] => True
  | item :: rest => item.Ordered ∧ AllOrdered rest

def AllMembersOrdered : List (String × Json) → Prop
  | [] => True
  | (_, value) :: rest => value.Ordered ∧ AllMembersOrdered rest

end

theorem allMembersOrdered_iff {members : List (String × Json)} :
    AllMembersOrdered members ↔ ∀ member ∈ members, member.2.Ordered := by
  induction members with
  | nil => exact ⟨fun _ v hv => (List.not_mem_nil hv).elim, fun _ => trivial⟩
  | cons member members ih => rw [AllMembersOrdered, List.forall_mem_cons, ih]

mutual

/-- There is nothing to sort in an ordered value. -/
theorem sorted_of_ordered : ∀ v : Json, v.Ordered → v.sorted = v
  | .arr items, h => by rw [sorted, sortedItems_of_ordered items h]
  | .obj members, h => by
    rw [sorted, sortedMembers_of_ordered members h.2, sortEntries_of_sorted h.1]
  | .null, _ => rfl
  | .bool _, _ => rfl
  | .num _, _ => rfl
  | .str _, _ => rfl

theorem sortedItems_of_ordered : ∀ items : List Json, AllOrdered items → sortedItems items = items
  | [], _ => rfl
  | item :: rest, h => by
    rw [sortedItems, sorted_of_ordered item h.1, sortedItems_of_ordered rest h.2]

theorem sortedMembers_of_ordered :
    ∀ members : List (String × Json), AllMembersOrdered members → sortedMembers members = members
  | [], _ => rfl
  | (name, value) :: rest, h => by
    rw [sortedMembers, sorted_of_ordered value h.1, sortedMembers_of_ordered rest h.2]

end

mutual

/-- The document of an ordered value denotes the value. -/
theorem ofDoc?_toDoc : ∀ v : Json, v.Ordered → ofDoc? v.toDoc = some v
  | .null, _ => rfl
  | .bool _, _ => rfl
  | .num _, _ => rfl
  | .str _, _ => rfl
  | .arr items, h => by
    rw [toDoc, ofDoc?, ofDocs?_toDocs items h]
    rfl
  | .obj members, h => by
    rw [toDoc, ofDoc?, ofDocEntries?_toDocEntries members h.2]
    show some (obj (sortEntries members)) = _
    rw [sortEntries_of_sorted h.1]

theorem ofDocs?_toDocs : ∀ items : List Json, AllOrdered items → ofDocs? (toDocs items) = some items
  | [], _ => rfl
  | item :: rest, h => by
    rw [toDocs, ofDocs?, ofDoc?_toDoc item h.1, ofDocs?_toDocs rest h.2]
    rfl

theorem ofDocEntries?_toDocEntries : ∀ members : List (String × Json),
    AllMembersOrdered members → ofDocEntries? (toDocEntries members) = some members
  | [], _ => rfl
  | (name, value) :: rest, h => by
    rw [toDocEntries, ofDocEntries?, ofDoc?_toDoc value h.1, ofDocEntries?_toDocEntries rest h.2]
    rfl

end

/-! ## §2 What can be read of a document -/

mutual

/-- What a document denotes is ordered, and it is not deeper than what can be read. -/
theorem of_ofDoc? {n : Nat} : ∀ {doc : Doc} {v : Json}, ofDoc? (doc.limited n) = some v →
    v.Ordered ∧ v.Fits n
  | .null, _, h => by cases h; exact ⟨trivial, trivial⟩
  | .bool _, _, h => by cases h; exact ⟨trivial, trivial⟩
  | .num _, _, h => by cases h; exact ⟨trivial, trivial⟩
  | .text _, _, h => by cases h; exact ⟨trivial, trivial⟩
  | .seq docs, _, h => by
    rw [Doc.limited] at h
    split at h
    · cases h
    · next hroom =>
      obtain ⟨items, hitems, rfl⟩ := Option.map_eq_some_iff.1 h
      obtain ⟨hordered, hall⟩ := of_ofDocs? hitems
      exact ⟨hordered, Nat.pos_of_ne_zero hroom, hall⟩
  | .map entries, _, h => by
    rw [Doc.limited] at h
    split at h
    · cases h
    · next hroom =>
      obtain ⟨members, hmembers, rfl⟩ := Option.map_eq_some_iff.1 h
      have hall := of_ofDocEntries? hmembers
      -- Sorting keeps some of the members and makes none up.
      have hsorted : ∀ member ∈ sortEntries members, member.2.Ordered ∧ member.2.Fits (n - 1) :=
        fun member hmember => hall member (mem_of_mem_sortEntries hmember)
      exact ⟨⟨sorted_sortEntries members, allMembersOrdered_iff.2 fun m hm => (hsorted m hm).1⟩,
        Nat.pos_of_ne_zero hroom, allMembersFit_iff.2 fun m hm => (hsorted m hm).2⟩
  | .fault, _, h => by cases h
  | .word _, _, h => by cases h
  | .scalar _ _ _, _, h => by cases h
  | .tagged _ _, _, h => by cases h
  | .tooDeep _, _, h => by cases h

theorem of_ofDocs? {n : Nat} : ∀ {docs : List Doc} {items : List Json},
    ofDocs? (Doc.allLimited n docs) = some items → AllOrdered items ∧ AllFit n items
  | [], _, h => by cases h; exact ⟨trivial, trivial⟩
  | doc :: docs, _, h => by
    simp only [Doc.allLimited, ofDocs?, Option.bind_eq_bind, Option.bind_eq_some_iff] at h
    obtain ⟨first, hfirst, others, hothers, heq⟩ := h
    cases heq
    obtain ⟨hordered, hfit⟩ := of_ofDoc? hfirst
    obtain ⟨hothersOrdered, hothersFit⟩ := of_ofDocs? hothers
    exact ⟨⟨hordered, hothersOrdered⟩, hfit, hothersFit⟩

theorem of_ofDocEntries? {n : Nat} :
    ∀ {entries : List (Doc × Doc)} {members : List (String × Json)},
    ofDocEntries? (Doc.entriesLimited n entries) = some members →
      ∀ member ∈ members, member.2.Ordered ∧ member.2.Fits n
  | [], _, h => by cases h; simp
  | (key, doc) :: entries, _, h => by
    rw [Doc.entriesLimited] at h
    -- A key that is no text is the key of no member.
    cases hkey : key.limited n with
    | text name =>
      simp only [hkey, ofDocEntries?, Option.bind_eq_bind, Option.bind_eq_some_iff] at h
      obtain ⟨first, hfirst, others, hothers, heq⟩ := h
      cases heq
      rw [List.forall_mem_cons]
      exact ⟨of_ofDoc? hfirst, of_ofDocEntries? hothers⟩
    | _ => rw [hkey] at h; cases h

end

/-! ## §3 The values of texts -/

variable {text : String} {v : Json}

/-- What a text denotes is ordered and not too deep for the reader. -/
theorem parse?_eq_some (h : parse? text = some v) : v.Ordered ∧ v.Fits 127 := by
  unfold parse? at h
  dsimp only at h
  split at h
  · exact of_ofDoc? h
  · cases h

/-- The compact text of a value denotes the value. -/
theorem parse?_compact (hordered : v.Ordered) (hfits : v.Fits 127)
    (hnumbers : v.Numbers Number.Fits64) : parse? v.compact = some v := by
  rw [parse?, read_compact hnumbers, limited_toDoc v hfits]
  exact ofDoc?_toDoc v hordered

/-- The compact text of what a text denotes denotes the same. -/
theorem parse?_compact_of_parse? (h : parse? text = some v) (hnumbers : v.Numbers Number.Fits64) :
    parse? v.compact = some v := by
  obtain ⟨hordered, hfits⟩ := parse?_eq_some h
  exact parse?_compact hordered hfits hnumbers

end Json

end SqlWorkflow
