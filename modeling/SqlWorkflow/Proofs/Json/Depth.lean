import SqlWorkflow.Proofs.Json.Text

/-!
# How deep a JSON value is

A reader takes a value if there is room for the containers that stand inside one another in it.

- **§1** Room for a value (`Json.Fits`); more room does no harm.
- **§2** Room for what the library writes: arrays, dictionaries, and objects some of whose members
  are left out.
- **§3** Values of which nothing but texts, truth values and natural numbers stand at a known depth
  (`Json.Bounded`).
-/

namespace SqlWorkflow.Json

variable {α : Type}

/-! ## §1 Room -/

mutual

/-- Do at most `n` containers stand inside one another? -/
def Fits (n : Nat) : Json → Prop
  | .arr items => 0 < n ∧ AllFit (n - 1) items
  | .obj members => 0 < n ∧ AllMembersFit (n - 1) members
  | _ => True

def AllFit (n : Nat) : List Json → Prop
  | [] => True
  | item :: rest => item.Fits n ∧ AllFit n rest

def AllMembersFit (n : Nat) : List (String × Json) → Prop
  | [] => True
  | (_, value) :: rest => value.Fits n ∧ AllMembersFit n rest

end

theorem allFit_iff {n : Nat} {items : List Json} : AllFit n items ↔ ∀ v ∈ items, v.Fits n := by
  induction items with
  | nil => exact ⟨fun _ v hv => (List.not_mem_nil hv).elim, fun _ => trivial⟩
  | cons item items ih => rw [AllFit, List.forall_mem_cons, ih]

theorem allMembersFit_iff {n : Nat} {members : List (String × Json)} :
    AllMembersFit n members ↔ ∀ member ∈ members, member.2.Fits n := by
  induction members with
  | nil => exact ⟨fun _ v hv => (List.not_mem_nil hv).elim, fun _ => trivial⟩
  | cons member members ih => rw [AllMembersFit, List.forall_mem_cons, ih]

mutual

theorem Fits.mono {m n : Nat} (hmn : m ≤ n) : ∀ v : Json, v.Fits m → v.Fits n
  | .arr items, h =>
    ⟨Nat.lt_of_lt_of_le h.1 hmn, AllFit.mono (Nat.sub_le_sub_right hmn 1) items h.2⟩
  | .obj members, h =>
    ⟨Nat.lt_of_lt_of_le h.1 hmn, AllMembersFit.mono (Nat.sub_le_sub_right hmn 1) members h.2⟩
  | .null, _ => trivial
  | .bool _, _ => trivial
  | .num _, _ => trivial
  | .str _, _ => trivial

theorem AllFit.mono {m n : Nat} (hmn : m ≤ n) : ∀ items : List Json, AllFit m items → AllFit n items
  | [], _ => trivial
  | item :: rest, h => ⟨Fits.mono hmn item h.1, AllFit.mono hmn rest h.2⟩

theorem AllMembersFit.mono {m n : Nat} (hmn : m ≤ n) :
    ∀ members : List (String × Json), AllMembersFit m members → AllMembersFit n members
  | [], _ => trivial
  | (_, value) :: rest, h => ⟨Fits.mono hmn value h.1, AllMembersFit.mono hmn rest h.2⟩

end

/-! ## §2 What the library writes -/

/-- An array, or an object, takes one of the levels that there is room for. -/
theorem fits_arr_map {encode : α → Json} {items : List α} {n : Nat} :
    (Json.arr (items.map encode)).Fits (n + 1) ↔ ∀ a ∈ items, (encode a).Fits n := by
  rw [Fits, allFit_iff, List.forall_mem_map]
  exact and_iff_right (Nat.succ_pos n)

theorem fits_ofDict {encode : α → Json} {d : Dict α} {n : Nat} :
    (ofDict encode d).Fits (n + 1) ↔ ∀ entry ∈ d.entries, (encode entry.2).Fits n := by
  rw [ofDict, Fits, allMembersFit_iff, List.forall_mem_map]
  exact and_iff_right (Nat.succ_pos n)

theorem fits_present {written : List (String × Option Json)} {n : Nat} :
    (present written).Fits (n + 1) ↔ ∀ member ∈ written, ∀ v ∈ member.2, v.Fits n := by
  rw [present, Fits, allMembersFit_iff]
  constructor
  -- A member that is present is a member of the object, and the object has no others.
  · rintro h ⟨name, value?⟩ hmember v hv
    have hsome : value?.map (name, ·) = some (name, v) := congrArg (Option.map (name, ·)) hv
    exact h.2 (name, v) (List.mem_filterMap.2 ⟨_, hmember, hsome⟩)
  · refine fun h => ⟨Nat.succ_pos n, fun member hmember => ?_⟩
    obtain ⟨⟨name, value?⟩, hwritten, hsome⟩ := List.mem_filterMap.1 hmember
    obtain ⟨v, rfl, rfl⟩ := Option.map_eq_some_iff.1 hsome
    exact h _ hwritten v rfl

/-- A member that is written is a member of the object. -/
theorem exists_present_eq {written : List (String × Option Json)} {name : String} {v : Json}
    (h : (name, some v) ∈ written) :
    ∃ members, present written = .obj members ∧ (name, v) ∈ members :=
  ⟨_, rfl, List.mem_filterMap.2 ⟨_, h, rfl⟩⟩

/-- Nothing is said about a member that is left out. -/
theorem forall_mem_unless {P : Json → Prop} {b : Bool} {value : Json} (h : P value) :
    ∀ v ∈ (if b then none else some value), P v := by
  intro v hv
  split at hv
  · cases hv
  · cases hv
    exact h

/-! ## §3 Bounded values -/

/-- A value whose numbers are natural numbers of at most 64 bits, and that fits. -/
structure Bounded (n : Nat) (v : Json) : Prop where
  whole : v.Whole
  fits : v.Fits n

/-- A member that is left out or bounded. -/
def BoundedMember (n : Nat) (value? : Option Json) : Prop := ∀ v ∈ value?, v.Bounded n

variable {n : Nat}

theorem bounded_str (s : String) : Bounded n (.str s) := ⟨trivial, trivial⟩

theorem bounded_bool (b : Bool) : Bounded n (.bool b) := ⟨trivial, trivial⟩

theorem bounded_nat {m : Nat} (h : m < Nat.pow 2 64) : Bounded n (.nat m) :=
  ⟨⟨Int.natCast_nonneg m, by exact_mod_cast h⟩, trivial⟩

theorem bounded_arr_map {encode : α → Json} {items : List α}
    (h : ∀ a ∈ items, (encode a).Bounded n) : (Json.arr (items.map encode)).Bounded (n + 1) :=
  ⟨whole_arr_map fun a ha => (h a ha).whole, fits_arr_map.2 fun a ha => (h a ha).fits⟩

theorem bounded_obj {members : List (String × Json)} (h : ∀ member ∈ members, member.2.Bounded n) :
    (obj members).Bounded (n + 1) :=
  ⟨allMembersWhole_of_forall fun m hm => (h m hm).whole,
    Nat.succ_pos n, allMembersFit_iff.2 fun m hm => (h m hm).fits⟩

theorem bounded_strings (texts : List String) : (strings texts).Bounded (n + 1) :=
  bounded_arr_map fun s _ => bounded_str s

theorem bounded_ofDict {encode : α → Json} {d : Dict α}
    (h : ∀ entry ∈ d.entries, (encode entry.2).Bounded n) : (ofDict encode d).Bounded (n + 1) :=
  ⟨whole_ofDict fun e he => (h e he).whole, fits_ofDict.2 fun e he => (h e he).fits⟩

theorem bounded_present {written : List (String × Option Json)}
    (h : ∀ member ∈ written, BoundedMember n member.2) : (present written).Bounded (n + 1) :=
  ⟨whole_present fun m hm v hv => (h m hm v hv).whole,
    fits_present.2 fun m hm v hv => (h m hm v hv).fits⟩

theorem Bounded.member {v : Json} (h : v.Bounded n) : BoundedMember n (some v) :=
  fun _ hv => Option.some.inj hv ▸ h

theorem boundedMember_map {encode : α → Json} (h : ∀ a, (encode a).Bounded n) (a? : Option α) :
    BoundedMember n (a?.map encode) := by
  intro v hv
  obtain ⟨a, -, rfl⟩ := Option.map_eq_some_iff.1 hv
  exact h a

end SqlWorkflow.Json
