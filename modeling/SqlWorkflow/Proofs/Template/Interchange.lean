import SqlWorkflow.Proofs.Json.Values
import SqlWorkflow.Template.Interchange

/-!
# JSON values that become values of templates

A value whose numbers are whole and have at most 64 bits comes back from templates as it was if and
only if all its numbers fit 64 bits with their sign (`toJson_ofJson_eq_iff`).  Greater ones become
floats: some of them become one float, so that nothing could tell them apart
(`ofJson_greatest_eq`), and none of them comes back.

- **§1** Dictionaries whose keys are texts have the entries of a list with these names in order
  (`ofEntries_textEntries`).
- **§2** Numbers with a sign come back.
- **§3** Greater numbers do not.
-/

namespace SqlWorkflow

/-- A whole number that 64 bits hold together with its sign. -/
def Number.FitsSigned : Number → Prop
  | .int n => -Nat.pow 2 63 ≤ n ∧ n < Nat.pow 2 63
  | .float _ => False

theorem Number.FitsSigned.fits64 {n : Number} (h : n.FitsSigned) : n.Fits64 := by
  cases n with
  | int n => exact ⟨h.1, Int.lt_trans h.2 (by decide)⟩
  | float x => exact h

mutual

theorem Json.Numbers.mono {P Q : Number → Prop} (hPQ : ∀ n, P n → Q n) :
    ∀ v : Json, v.Numbers P → v.Numbers Q
  | .num n, h => hPQ n h
  | .arr items, h => Json.AllNumbers.mono hPQ items h
  | .obj members, h => Json.AllMemberNumbers.mono hPQ members h
  | .null, _ => trivial
  | .bool _, _ => trivial
  | .str _, _ => trivial

theorem Json.AllNumbers.mono {P Q : Number → Prop} (hPQ : ∀ n, P n → Q n) :
    ∀ items : List Json, Json.AllNumbers P items → Json.AllNumbers Q items
  | [], _ => trivial
  | item :: rest, h => ⟨Json.Numbers.mono hPQ item h.1, Json.AllNumbers.mono hPQ rest h.2⟩

theorem Json.AllMemberNumbers.mono {P Q : Number → Prop} (hPQ : ∀ n, P n → Q n) :
    ∀ members, Json.AllMemberNumbers P members → Json.AllMemberNumbers Q members
  | [], _ => trivial
  | (_, value) :: rest, h =>
    ⟨Json.Numbers.mono hPQ value h.1, Json.AllMemberNumbers.mono hPQ rest h.2⟩

end

namespace Template.Value

/-! ## §1 Dictionaries with texts for keys -/

/-- The entries of a dictionary with these names. -/
def textEntries (entries : List (String × Value)) : List (Value × Value) :=
  entries.map fun entry => (.text entry.1, entry.2)

theorem order_text (a b : String) :
    (text a).order (text b) = if a < b then .lt else if a = b then .eq else .gt := by
  simp only [order]
  rfl

/-- Setting a key that is text is inserting an entry. -/
theorem putEntry_textEntries (name : String) (value : Value) (entries : List (String × Value)) :
    putEntry (.text name) value (textEntries entries) =
      textEntries (insertEntry name value entries) := by
  induction entries with
  | nil => rfl
  | cons entry rest ih =>
    rw [insertEntry]
    show putEntry _ _ ((.text entry.1, entry.2) :: textEntries rest) = _
    rw [putEntry, order_text]
    by_cases hlt : name < entry.1
    · rw [if_pos hlt, if_pos hlt]
      rfl
    · rw [if_neg hlt, if_neg hlt]
      by_cases heq : name = entry.1
      · rw [if_pos heq, if_pos heq, heq]
        rfl
      · rw [if_neg heq, if_neg heq]
        show _ :: putEntry _ _ (textEntries rest) = _
        rw [ih]
        rfl

/-- A dictionary of entries with names has them in the order of the names. -/
theorem ofEntries_textEntries (entries : List (String × Value)) :
    ofEntries (textEntries entries) = .dict (textEntries (sortEntries entries)) := by
  have key : ∀ start : List (String × Value),
      (textEntries entries).foldl (fun found entry => putEntry entry.1 entry.2 found)
          (textEntries start) =
        textEntries
          (entries.foldl (fun found entry => insertEntry entry.1 entry.2 found) start) := by
    induction entries with
    | nil => exact fun _ => rfl
    | cons entry rest ih =>
      intro start
      show (textEntries rest).foldl _ (putEntry (.text entry.1) entry.2 (textEntries start)) = _
      rw [putEntry_textEntries, ih]
      rfl
  exact congrArg dict (key [])

theorem entriesJson_textEntries (entries : List (String × Value)) :
    entriesJson (textEntries entries) = entries.map fun entry => (entry.1, entry.2.toJson) := by
  induction entries with
  | nil => rfl
  | cons entry rest ih =>
    show ((Value.text entry.1).text?.getD "", entry.2.toJson) :: entriesJson (textEntries rest) = _
    rw [ih]
    rfl

theorem ofMembers_eq (members : List (String × Json)) :
    ofMembers members = textEntries (members.map fun member => (member.1, ofJson member.2)) := by
  induction members with
  | nil => rfl
  | cons member rest ih =>
    rw [ofMembers, ih]
    rfl

/-- An entry is put in its place by its name alone. -/
theorem map_insertEntry {α β : Type} (f : α → β) (name : String) (value : α)
    (entries : List (String × α)) :
    (insertEntry name value entries).map (fun entry => (entry.1, f entry.2)) =
      insertEntry name (f value) (entries.map fun entry => (entry.1, f entry.2)) := by
  induction entries with
  | nil => rfl
  | cons first rest ih =>
    simp only [insertEntry, List.map_cons]
    split
    · rfl
    · split
      · rfl
      · rw [List.map_cons, ih]

/-- Entries are sorted by their names alone. -/
theorem map_sortEntries {α β : Type} (f : α → β) (entries : List (String × α)) :
    (sortEntries entries).map (fun entry => (entry.1, f entry.2)) =
      sortEntries (entries.map fun entry => (entry.1, f entry.2)) := by
  -- Of insertions into any entries, for the induction.
  have key : ∀ start : List (String × α),
      (entries.foldl (fun found entry => insertEntry entry.1 entry.2 found) start).map
          (fun entry => (entry.1, f entry.2)) =
        (entries.map fun entry => (entry.1, f entry.2)).foldl
          (fun found entry => insertEntry entry.1 entry.2 found)
          (start.map fun entry => (entry.1, f entry.2)) := by
    induction entries with
    | nil => exact fun _ => rfl
    | cons entry rest ih =>
      intro start
      rw [List.foldl_cons, ih, map_insertEntry]
      rfl
  exact key []

/-- An object comes back with its members in order, each with what came back of its value. -/
theorem toJson_ofJson_obj (members : List (String × Json)) :
    (ofJson (.obj members)).toJson =
      .obj (sortEntries (members.map fun member => (member.1, (ofJson member.2).toJson))) := by
  have hmembers : entriesJson (textEntries
        (sortEntries (members.map fun member => (member.1, ofJson member.2)))) =
      sortEntries (members.map fun member => (member.1, (ofJson member.2).toJson)) := by
    rw [entriesJson_textEntries, map_sortEntries, List.map_map]
    rfl
  rw [ofJson, ofMembers_eq, ofEntries_textEntries, toJson, hmembers,
    sortEntries_of_sorted (sorted_sortEntries _)]

/-! ## §2 Numbers with a sign -/

theorem isWord_iff {n : Int} : isWord n = true ↔ (Number.int n).FitsSigned := by
  simp only [isWord, Bool.and_eq_true, decide_eq_true_eq, Number.FitsSigned]

theorem toJson_ofNumber {n : Number} (h : n.FitsSigned) : (ofNumber n).toJson = .num n := by
  cases n with
  | int n =>
    have hword := isWord_iff.2 h
    rw [ofNumber, if_pos hword, toJson, if_pos hword]
  | float x => exact h.elim

mutual

/-- A value whose numbers fit 64 bits with their sign comes back with its members in order. -/
theorem toJson_ofJson : ∀ v : Json, v.Numbers Number.FitsSigned → (ofJson v).toJson = v.sorted
  | .null, _ => rfl
  | .bool _, _ => rfl
  | .num _, h => toJson_ofNumber h
  | .str _, _ => rfl
  | .arr items, h => by rw [ofJson, toJson, itemsJson_ofItems items h, Json.sorted]
  | .obj members, h => by rw [toJson_ofJson_obj, map_toJson_ofJson members h, Json.sorted]

theorem itemsJson_ofItems : ∀ items : List Json, Json.AllNumbers Number.FitsSigned items →
    itemsJson (ofItems items) = Json.sortedItems items
  | [], _ => rfl
  | item :: rest, h => by
    rw [ofItems, itemsJson, toJson_ofJson item h.1, itemsJson_ofItems rest h.2, Json.sortedItems]

theorem map_toJson_ofJson : ∀ members : List (String × Json),
    Json.AllMemberNumbers Number.FitsSigned members →
    members.map (fun member => (member.1, (ofJson member.2).toJson)) = Json.sortedMembers members
  | [], _ => rfl
  | (name, value) :: rest, h => by
    rw [List.map_cons, toJson_ofJson value h.1, map_toJson_ofJson rest h.2, Json.sortedMembers]

end

/-! ## §3 Greater numbers -/

/-- What a float is written as is no whole number of more than 63 bits. -/
theorem floatJson_ne {n : Int} (h : Nat.pow 2 63 ≤ n) (x : Float) :
    floatJson x ≠ .num (.int n) := by
  -- A number that is written as a whole one has been read from 64 bits.
  have hword : ∀ m, wholeOf? x = some m → m < Nat.pow 2 63 := by
    intro m hm
    unfold wholeOf? at hm
    dsimp only at hm
    split at hm
    · cases hm
      exact Int64.toInt_lt _
    · cases hm
  intro heq
  unfold floatJson at heq
  split at heq
  · next m hm =>
    cases heq
    exact absurd (hword n hm) (Int.not_lt.2 h)
  · split at heq <;> cases heq

/-- A number comes back if and only if it fits 64 bits with its sign. -/
theorem toJson_ofNumber_eq_iff {n : Number} (h : n.Fits64) :
    (ofNumber n).toJson = .num n ↔ n.FitsSigned := by
  refine ⟨fun heq => ?_, toJson_ofNumber⟩
  cases n with
  | int n =>
    by_contra hfits
    -- Such a number is not negative, so it is above the range and was made a float.
    have hword : ¬ isWord n = true := mt isWord_iff.1 hfits
    have hgreat : Nat.pow 2 63 ≤ n := Int.not_lt.1 fun hlt => hfits ⟨h.1, hlt⟩
    rw [ofNumber, if_neg hword, toJson] at heq
    exact floatJson_ne hgreat _ heq
  | float x => exact h

mutual

theorem numbers_of_toJson_ofJson : ∀ v : Json, v.Ordered → v.Numbers Number.Fits64 →
    (ofJson v).toJson = v → v.Numbers Number.FitsSigned
  | .null, _, _, _ => trivial
  | .bool _, _, _, _ => trivial
  | .num _, _, hnumbers, h => (toJson_ofNumber_eq_iff hnumbers).1 h
  | .str _, _, _, _ => trivial
  | .arr items, hordered, hnumbers, h =>
    numbers_of_itemsJson items hordered hnumbers (Json.arr.inj h)
  | .obj members, hordered, hnumbers, h => by
    -- The members are in order already, so each stays in its place.
    have hsorted : SortedEntries
        (members.map fun member => (member.1, (ofJson member.2).toJson)) :=
      List.pairwise_map.2 hordered.1
    rw [toJson_ofJson_obj, sortEntries_of_sorted hsorted] at h
    exact numbers_of_map members hordered.2 hnumbers (Json.obj.inj h)

theorem numbers_of_itemsJson : ∀ items : List Json, Json.AllOrdered items →
    Json.AllNumbers Number.Fits64 items → itemsJson (ofItems items) = items →
    Json.AllNumbers Number.FitsSigned items
  | [], _, _, _ => trivial
  | item :: rest, hordered, hnumbers, h => by
    obtain ⟨hfirst, hrest⟩ := List.cons.inj h
    exact ⟨numbers_of_toJson_ofJson item hordered.1 hnumbers.1 hfirst,
      numbers_of_itemsJson rest hordered.2 hnumbers.2 hrest⟩

theorem numbers_of_map : ∀ members : List (String × Json), Json.AllMembersOrdered members →
    Json.AllMemberNumbers Number.Fits64 members →
    members.map (fun member => (member.1, (ofJson member.2).toJson)) = members →
    Json.AllMemberNumbers Number.FitsSigned members
  | [], _, _, _ => trivial
  | (_, value) :: rest, hordered, hnumbers, h => by
    obtain ⟨hfirst, hrest⟩ := List.cons.inj h
    exact ⟨numbers_of_toJson_ofJson value hordered.1 hnumbers.1 (Prod.mk.inj hfirst).2,
      numbers_of_map rest hordered.2 hnumbers.2 hrest⟩

end

/-- A value with whole numbers of 64 bits comes back from templates as it was if and only if all of
them fit 64 bits with their sign. -/
theorem toJson_ofJson_eq_iff {v : Json} (hordered : v.Ordered)
    (hnumbers : v.Numbers Number.Fits64) :
    (ofJson v).toJson = v ↔ v.Numbers Number.FitsSigned := by
  refine ⟨numbers_of_toJson_ofJson v hordered hnumbers, fun hsigned => ?_⟩
  rw [toJson_ofJson v hsigned, Json.sorted_of_ordered v hordered]

/-- The two greatest numbers of 64 bits are one and the same to templates. -/
theorem ofJson_greatest_eq :
    ofJson (.num (.int 18446744073709551615)) = ofJson (.num (.int 18446744073709551614)) := by
  have hfloat : Float.ofInt 18446744073709551615 = Float.ofInt 18446744073709551614 := by
    decide +kernel
  exact congrArg Value.float hfloat

end Template.Value

end SqlWorkflow
