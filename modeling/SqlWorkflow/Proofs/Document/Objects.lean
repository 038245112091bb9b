import SqlWorkflow.Proofs.Document.Records
import Mathlib.Data.List.Forall2
import Mathlib.Data.List.Nodup
import Mathlib.Tactic.Common

/-!
# What a record makes of an object

A record that consists of texts, truth values and numbers is described by its properties: the name
and the type of each, and whether it must be given.  From the properties alone it follows what
becomes of an object, whatever its members are and in whatever order they stand:

- if a member has not the type of its property, the first such member is reported
  (`Describes.decode_of_firstMistyped`);
- otherwise, if a property that must be given has no member, the first such property is reported
  (`Describes.decode_of_absent`);
- otherwise the record is read (`Describes.exists_decode_eq_ok`).

There is no other reason why an object is refused (`Describes.decode_eq_error_iff`).  Each member is
read by itself (`Describes.entry_of_admits`, `Describes.entry_of_mistyped`), and the members are
followed with the names that have been seen.

- **§1** Types of values, and decoders that tell what has a type.
- **§2** Properties, and the fields that read them.
- **§3** One member.
- **§4** All members of an object.
-/

namespace SqlWorkflow.Decode

variable {α σ : Type} {value : Json} {cause : ShapeError}

/-! ## §1 Types -/

/-- A type of the values that a property may have. -/
inductive ValueType where
  | text
  | flag
  /-- A whole number of so many bits. -/
  | natural (bits : Nat)
  /-- A value that may be null. -/
  | optional (type : ValueType)
  deriving DecidableEq, Repr

variable {type : ValueType}

/-- The values of a type. -/
inductive HasType : ValueType → Json → Prop where
  | text (s : String) : HasType .text (.str s)
  | flag (b : Bool) : HasType .flag (.bool b)
  | natural {bits n : Nat} (hrange : n < Nat.pow 2 bits) : HasType (.natural bits) (.nat n)
  | null (type : ValueType) : HasType (.optional type) .null
  | given {type : ValueType} {value : Json} (h : HasType type value) :
      HasType (.optional type) value

/-- A value is not of a type: it is of another type altogether, or it is a whole number out of
range.  The cause says what was found. -/
inductive Mistyped : ValueType → Json → ShapeError → Prop where
  | notText {value : Json} {found : Found} (hfound : found? .jsonValue value.toDoc = some found)
      (h : ∀ s, value ≠ .str s) : Mistyped .text value (.invalidType found "a string")
  | notFlag {value : Json} {found : Found} (hfound : found? .jsonValue value.toDoc = some found)
      (h : ∀ b, value ≠ .bool b) : Mistyped .flag value (.invalidType found "a boolean")
  | notWhole {bits : Nat} {value : Json} {found : Found}
      (hfound : found? .jsonValue value.toDoc = some found) (h : ∀ n, value ≠ .num (.int n)) :
      Mistyped (.natural bits) value (.invalidType found ("u" ++ toString bits))
  | outOfRange {bits : Nat} {n : Int} (h : n < 0 ∨ Nat.pow 2 bits ≤ n) :
      Mistyped (.natural bits) (.num (.int n))
        (.invalidValue (.integer n) ("u" ++ toString bits))
  | given {type : ValueType} {value : Json} {cause : ShapeError} (hnull : value ≠ .null)
      (h : Mistyped type value cause) : Mistyped (.optional type) value cause

theorem exists_found? (value : Json) : ∃ found, found? .jsonValue value.toDoc = some found := by
  cases value with
  | num n => cases n <;> exact ⟨_, rfl⟩
  | _ => exact ⟨_, rfl⟩

/-- A value is of a type, or there is a cause why it is not. -/
theorem hasType_or_mistyped (type : ValueType) (value : Json) :
    HasType type value ∨ ∃ cause, Mistyped type value cause := by
  obtain ⟨found, hfound⟩ := exists_found? value
  induction type with
  | text =>
    by_cases h : ∃ s, value = .str s
    · obtain ⟨s, rfl⟩ := h
      exact .inl (.text s)
    · exact .inr ⟨_, .notText hfound fun s heq => h ⟨s, heq⟩⟩
  | flag =>
    by_cases h : ∃ b, value = .bool b
    · obtain ⟨b, rfl⟩ := h
      exact .inl (.flag b)
    · exact .inr ⟨_, .notFlag hfound fun b heq => h ⟨b, heq⟩⟩
  | natural bits =>
    -- A whole number may still be out of range; no other value is a number of this type at all.
    by_cases h : ∃ n, value = .num (.int n)
    · obtain ⟨n, rfl⟩ := h
      by_cases hrange : n < 0 ∨ Nat.pow 2 bits ≤ n
      · exact .inr ⟨_, .outOfRange hrange⟩
      · obtain ⟨m, rfl⟩ := Int.eq_ofNat_of_zero_le (show 0 ≤ n by omega)
        exact .inl (.natural (by omega))
    · exact .inr ⟨_, .notWhole hfound fun n heq => h ⟨n, heq⟩⟩
  | optional type ih =>
    by_cases hnull : value = .null
    · subst hnull
      exact .inl (.null type)
    · exact ih.imp .given fun ⟨cause, h⟩ => ⟨cause, .given hnull h⟩

/-- There is no cause why a value of a type is not of the type. -/
theorem Mistyped.not_hasType (h : Mistyped type value cause) : ¬ HasType type value := by
  induction h with
  | notText _ h =>
    intro htype
    cases htype with
    | text s => exact h s rfl
  | notFlag _ h =>
    intro htype
    cases htype with
    | flag b => exact h b rfl
  | notWhole _ h =>
    intro htype
    cases htype with
    | natural => exact h _ rfl
  | outOfRange h =>
    intro htype
    cases htype with
    | natural hrange => omega
  | given hnull _ ih =>
    intro htype
    cases htype with
    | null => exact hnull rfl
    | given htype => exact ih htype

theorem not_hasType_iff : ¬ HasType type value ↔ ∃ cause, Mistyped type value cause :=
  ⟨(hasType_or_mistyped type value).resolve_left, fun ⟨_, h⟩ => h.not_hasType⟩

/-- A property that is not given is another matter. -/
theorem Mistyped.ne_missingField (h : Mistyped type value cause) (name : String) :
    cause ≠ .missingField name := by
  induction h with
  | given _ _ ih => exact ih
  | _ => exact ShapeError.noConfusion

/-- The decoder reads the values of the type, and says of others why they are not of the type. -/
structure Judges (decode : Decoder α) (type : ValueType) : Prop where
  takes {value : Json} (h : HasType type value) : ∃ a, decode .jsonValue value.toDoc = .ok a
  refuses {value : Json} {cause : ShapeError} (h : Mistyped type value cause) :
    decode .jsonValue value.toDoc = .error (.shape (some []) cause)

theorem mismatch_eq {found : Found} (hfound : found? .jsonValue value.toDoc = some found)
    (expected : String) :
    mismatch .jsonValue value.toDoc expected = .shape (some []) (.invalidType found expected) := by
  cases value <;>
  · simp only [Json.toDoc] at hfound
    simp only [Json.toDoc, mismatch, hfound]

theorem judges_string : Judges string .text where
  takes h := by
    cases h with
    | text s => exact ⟨s, rfl⟩
  refuses {value _} h := by
    cases h with
    | notText hfound h =>
      rw [← mismatch_eq hfound]
      cases value with
      | str s => exact absurd rfl (h s)
      | _ => rfl

theorem judges_bool : Judges bool .flag where
  takes h := by
    cases h with
    | flag b => exact ⟨b, rfl⟩
  refuses {value _} h := by
    cases h with
    | notFlag hfound h =>
      rw [← mismatch_eq hfound]
      cases value with
      | bool b => exact absurd rfl (h b)
      | _ => rfl

theorem judges_natural (bits : Nat) : Judges (natural bits) (.natural bits) where
  takes h := by
    cases h with
    | @natural _ n hrange => exact ⟨n, takes_natural hrange .jsonValue⟩
  refuses {value _} h := by
    cases h with
    | notWhole hfound h =>
      rw [← mismatch_eq hfound]
      cases value with
      | num n =>
        cases n with
        | int n => exact absurd rfl (h n)
        | float x => rfl
      | _ => rfl
    | outOfRange h =>
      refine if_neg fun hrange => ?_
      change _ ∧ _ < (Nat.pow 2 bits : Int) at hrange
      omega

/-- A value that is not null is read as it would be if it could not be null. -/
theorem option_of_ne_null (decode : Decoder α) (hnull : value ≠ .null) :
    option decode .jsonValue value.toDoc = some <$> decode .jsonValue value.toDoc := by
  cases value with
  | null => exact absurd rfl hnull
  | _ => rfl

theorem Judges.option {decode : Decoder α} (h : Judges decode type) :
    Judges (option decode) (.optional type) where
  takes {value} hvalue := by
    by_cases hnull : value = .null
    · subst hnull
      exact ⟨none, rfl⟩
    · cases hvalue with
      | null => exact absurd rfl hnull
      | given hvalue =>
        obtain ⟨a, ha⟩ := h.takes hvalue
        rw [option_of_ne_null decode hnull, ha]
        exact ⟨some a, rfl⟩
  refuses hvalue := by
    cases hvalue with
    | given hnull hvalue =>
      rw [option_of_ne_null decode hnull, h.refuses hvalue]
      rfl

/-! ## §2 Properties -/

/-- A property of a record. -/
structure Property where
  name : String
  type : ValueType
  /-- Must the property be given? -/
  required : Bool
  deriving DecidableEq, Repr

/-- The names of the properties that must be given. -/
def requiredNames (properties : List Property) : List String :=
  (properties.filter (·.required)).map (·.name)

/-- The field reads the property: it has no other name, and it reads the values of its type. -/
structure Reads (p : Property) (f : Field σ) : Prop where
  name_eq : f.name = p.name
  spellings_eq : f.spellings = [p.name]
  required_eq : f.required = p.required
  takes {value : Json} (h : HasType p.type value) (record : σ) :
    ∃ record', f.read .jsonValue value.toDoc record = .ok record'
  refuses {value : Json} {cause : ShapeError} (h : Mistyped p.type value cause) (record : σ) :
    f.read .jsonValue value.toDoc record = .error (.shape (some []) cause)

theorem Judges.reads {decode : Decoder α} (h : Judges decode type) (name : String)
    (put : α → σ → σ) : Reads ⟨name, type, false⟩ (field name decode put) where
  name_eq := rfl
  spellings_eq := rfl
  required_eq := rfl
  takes hvalue record := by
    obtain ⟨a, ha⟩ := h.takes hvalue
    exact ⟨put a record, congrArg (Except.map fun value => put value record) ha⟩
  refuses hvalue record := congrArg (Except.map fun value => put value record) (h.refuses hvalue)

theorem Reads.mandatory {name : String} {f : Field σ} (h : Reads ⟨name, type, false⟩ f) :
    Reads ⟨name, type, true⟩ f.mandatory where
  name_eq := h.name_eq
  spellings_eq := h.spellings_eq
  required_eq := rfl
  takes := h.takes
  refuses := h.refuses

/-- The record has these properties, and members that belong to none of them do not matter. -/
structure Describes (properties : List Property) (shape : Shape σ) : Prop where
  isOpen : shape.closed = false
  keepsNone : shape.keeps = false
  nodup_names : (properties.map (·.name)).Nodup
  reads : List.Forall₂ Reads properties shape.fields

variable {properties : List Property} {shape : Shape σ}

/-- A name belongs to a property and to the field that reads it, or to none of the fields. -/
theorem find?_cases {fields : List (Field σ)} (h : List.Forall₂ Reads properties fields)
    (name : String) :
    (name ∉ properties.map (·.name) ∧
        fields.find? (fun f => f.spellings.contains name) = none) ∨
      ∃ p ∈ properties, ∃ f, p.name = name ∧ Reads p f ∧
        fields.find? (fun f => f.spellings.contains name) = some f := by
  induction h with
  | nil => exact .inl ⟨List.not_mem_nil, rfl⟩
  | @cons p f properties fields hreads rest ih =>
    by_cases hname : p.name = name
    · have hspelled : f.spellings.contains name = true := by simp [hreads.spellings_eq, hname]
      exact .inr ⟨p, List.mem_cons_self, f, hname, hreads, List.find?_cons_of_pos hspelled⟩
    · have hskipped : (f :: fields).find? (fun f => f.spellings.contains name) =
          fields.find? (fun f => f.spellings.contains name) :=
        List.find?_cons_of_neg (by simpa [hreads.spellings_eq] using Ne.symm hname)
      rw [hskipped]
      rcases ih with ⟨hother, hnone⟩ | ⟨q, hq, hfound⟩
      · rw [List.map_cons, List.mem_cons, not_or]
        exact .inl ⟨⟨Ne.symm hname, hother⟩, hnone⟩
      · exact .inr ⟨q, List.mem_cons_of_mem _ hq, hfound⟩

/-- The first property that must be given and has not been seen. -/
theorem missing?_eq {fields : List (Field σ)} (h : List.Forall₂ Reads properties fields)
    (seen : List String) :
    (fields.find? fun f => f.required && !seen.contains f.name).map (·.name) =
      (requiredNames properties).find? fun name => !seen.contains name := by
  induction h with
  | nil => rfl
  | @cons p f properties fields hreads rest ih =>
    rw [List.find?_cons, hreads.required_eq, hreads.name_eq]
    cases hrequired : p.required with
    | false =>
      rw [requiredNames, List.filter_cons_of_neg (by simp [hrequired])]
      exact ih
    | true =>
      rw [requiredNames, List.filter_cons_of_pos hrequired, List.map_cons, List.find?_cons,
        Bool.true_and]
      cases seen.contains p.name with
      | true => exact ih
      | false => exact congrArg some hreads.name_eq

/-! ## §3 One member -/

/-- If the member belongs to a property, its value is of the type of the property. -/
def Admits (properties : List Property) (member : String × Json) : Prop :=
  ∀ p ∈ properties, p.name = member.1 → HasType p.type member.2

/-- A member that is admitted is read, and the name of its property has been seen then. -/
theorem Describes.entry_of_admits (h : Describes properties shape) {name : String}
    (hadmits : Admits properties (name, value)) {state : Partial σ} (hseen : name ∉ state.seen) :
    ∃ state', shape.entry .jsonValue state (.text name) value.toDoc = .ok state' ∧
      ∀ other, other ∈ state'.seen ↔
        other ∈ state.seen ∨ (other = name ∧ other ∈ properties.map (·.name)) := by
  rcases find?_cases h.reads name with ⟨hother, hnone⟩ | ⟨p, hp, f, rfl, hreads, hfound⟩
  · -- Whatever the value is, no field asks for it.
    refine ⟨state, ?_, ?_⟩
    · simp only [Shape.entry, textAs, bind, Except.bind, hnone, h.isOpen, h.keepsNone,
        hasFault_toDoc]
      rfl
    · intro other
      rw [or_iff_left]
      rintro ⟨rfl, hmem⟩
      exact hother hmem
  · obtain ⟨record', hread⟩ := hreads.takes (hadmits p hp rfl) state.record
    have hunseen : state.seen.contains f.name = false := by
      simpa [hreads.name_eq] using hseen
    refine ⟨{ state with record := record', seen := f.name :: state.seen }, ?_, ?_⟩
    · simp only [Shape.entry, textAs, bind, Except.bind, hfound, hunseen, hread]
      rfl
    · intro other
      rw [List.mem_cons, hreads.name_eq, or_comm, and_iff_left_of_imp]
      rintro rfl
      exact List.mem_map_of_mem hp

/-- A member whose value is not of the type of its property is reported with the cause. -/
theorem Describes.entry_of_mistyped (h : Describes properties shape) {p : Property}
    (hp : p ∈ properties) (hvalue : Mistyped p.type value cause) {state : Partial σ}
    (hseen : p.name ∉ state.seen) :
    shape.entry .jsonValue state (.text p.name) value.toDoc =
      .error (.shape (some [.key p.name]) cause) := by
  rcases find?_cases h.reads p.name with ⟨hother, -⟩ | ⟨q, hq, f, hname, hreads, hfound⟩
  · exact absurd (List.mem_map_of_mem hp) hother
  · obtain rfl : q = p := List.inj_on_of_nodup_map h.nodup_names hq hp hname
    have hunseen : state.seen.contains f.name = false := by
      simpa [hreads.name_eq] using hseen
    simp only [Shape.entry, textAs, bind, Except.bind, hfound, hunseen,
      hreads.refuses hvalue state.record]
    rfl

/-! ## §4 All members -/

variable {members : List (String × Json)}

/-- Members that are admitted are all read, and the names of their properties have been seen
then. -/
theorem Describes.entries_of_admits (h : Describes properties shape)
    (hadmits : ∀ member ∈ members, Admits properties member)
    (hnames : (members.map (·.1)).Nodup) (state : Partial σ)
    (hseen : ∀ name ∈ members.map (·.1), name ∉ state.seen) :
    ∃ state', shape.entries .jsonValue state (Json.toDocEntries members) = .ok state' ∧
      ∀ other, other ∈ state'.seen ↔
        other ∈ state.seen ∨ (other ∈ members.map (·.1) ∧ other ∈ properties.map (·.name)) := by
  induction members generalizing state with
  | nil => exact ⟨state, rfl, by simp⟩
  | cons member rest ih =>
    obtain ⟨name, value⟩ := member
    rw [List.map_cons, List.nodup_cons] at hnames
    obtain ⟨state', hentry, hseen'⟩ :=
      h.entry_of_admits (hadmits _ List.mem_cons_self) (hseen name List.mem_cons_self)
    -- Names do not come twice, so those of the rest have not been seen with this member either.
    have hrest : ∀ other ∈ rest.map (·.1), other ∉ state'.seen := by
      intro other hother hmem
      rcases (hseen' other).1 hmem with hmem | ⟨rfl, -⟩
      · exact hseen other (List.mem_cons_of_mem _ hother) hmem
      · exact hnames.1 hother
    obtain ⟨state'', hentries, hseen''⟩ :=
      ih (fun m hm => hadmits m (List.mem_cons_of_mem _ hm)) hnames.2 state' hrest
    refine ⟨state'', ?_, fun other => ?_⟩
    · rw [Json.toDocEntries, Shape.entries, hentry]
      exact hentries
    · rw [hseen'', hseen', List.map_cons, List.mem_cons, or_assoc, or_and_right]

/-- Of the members whose values are not of the types of their properties, the first one has this
name, and there is this cause. -/
def FirstMistyped (properties : List Property) (members : List (String × Json)) (name : String)
    (cause : ShapeError) : Prop :=
  ∃ before value after, members = before ++ (name, value) :: after ∧
    (∀ member ∈ before, Admits properties member) ∧
    ∃ p ∈ properties, p.name = name ∧ Mistyped p.type value cause

theorem FirstMistyped.not_admits {name : String}
    (h : FirstMistyped properties members name cause) :
    ¬ ∀ member ∈ members, Admits properties member := by
  obtain ⟨before, value, after, rfl, -, p, hp, hname, hmistyped⟩ := h
  intro hadmits
  exact hmistyped.not_hasType (hadmits (name, value) (by simp) p hp hname)

/-- All members are admitted, or there is a first one that is not. -/
theorem forall_admits_or_firstMistyped (properties : List Property)
    (members : List (String × Json)) :
    (∀ member ∈ members, Admits properties member) ∨
      ∃ name cause, FirstMistyped properties members name cause := by
  induction members with
  | nil => exact .inl fun _ hmem => absurd hmem List.not_mem_nil
  | cons member rest ih =>
    -- A member that is not admitted is the first one; otherwise the first one is in the rest.
    by_cases hadmits : Admits properties member
    · refine ih.imp (fun hrest => List.forall_mem_cons.2 ⟨hadmits, hrest⟩) ?_
      rintro ⟨name, cause, before, value, after, rfl, hbefore, hmistyped⟩
      exact ⟨name, cause, member :: before, value, after, rfl,
        List.forall_mem_cons.2 ⟨hadmits, hbefore⟩, hmistyped⟩
    · simp only [Admits, not_forall] at hadmits
      obtain ⟨p, hp, hname, htype⟩ := hadmits
      obtain ⟨cause, hmistyped⟩ := not_hasType_iff.1 htype
      exact .inr ⟨member.1, cause, [], member.2, rest, rfl,
        fun _ hmem => absurd hmem List.not_mem_nil, p, hp, hname, hmistyped⟩

/-- The first property that must be given and belongs to no member. -/
def firstAbsent? (properties : List Property) (members : List (String × Json)) : Option String :=
  (requiredNames properties).find? fun name => name ∉ members.map (·.1)

/-- Why an object is refused. -/
inductive Refused (properties : List Property) (members : List (String × Json)) :
    DecodeError → Prop where
  /-- The first member whose value is not of its type, whatever else the object lacks. -/
  | mistyped {name : String} {cause : ShapeError}
      (hfirst : FirstMistyped properties members name cause) :
      Refused properties members (.shape (some [.key name]) cause)
  /-- If there is no such member, the first property that must be given and is not. -/
  | absent {name : String} (hadmits : ∀ member ∈ members, Admits properties member)
      (habsent : firstAbsent? properties members = some name) :
      Refused properties members (.shape (some []) (.missingField name))

/-- That a property is missed has no other reason than that it is absent. -/
theorem refused_missingField_iff (path : Option (List Step)) (name : String) :
    Refused properties members (.shape path (.missingField name)) ↔
      path = some [] ∧ (∀ member ∈ members, Admits properties member) ∧
        firstAbsent? properties members = some name := by
  constructor
  · intro h
    cases h with
    | mistyped hfirst =>
      obtain ⟨before, value, after, -, -, p, -, -, hmistyped⟩ := hfirst
      exact absurd rfl (hmistyped.ne_missingField name)
    | absent hadmits habsent => exact ⟨rfl, hadmits, habsent⟩
  · rintro ⟨rfl, hadmits, habsent⟩
    exact .absent hadmits habsent

/-- If no property is absent that must be given, some member is not of its type. -/
theorem refused_iff_of_given (hgiven : firstAbsent? properties members = none) (e : DecodeError) :
    Refused properties members e ↔
      ∃ name cause, FirstMistyped properties members name cause ∧
        e = .shape (some [.key name]) cause := by
  constructor
  · intro h
    cases h with
    | mistyped hfirst => exact ⟨_, _, hfirst, rfl⟩
    | absent hadmits habsent =>
      rw [hgiven] at habsent
      cases habsent
  · rintro ⟨name, cause, hfirst, rfl⟩
    exact .mistyped hfirst

namespace Describes

variable (h : Describes properties shape) (hnames : (members.map (·.1)).Nodup) (start : σ)

include h hnames

/-- The first member whose value is not of the type of its property is reported, whatever else the
object lacks. -/
theorem decode_of_firstMistyped {name : String}
    (hfirst : FirstMistyped properties members name cause) :
    shape.decode start .jsonValue (Json.obj members).toDoc =
      .error (.shape (some [.key name]) cause) := by
  obtain ⟨before, value, after, rfl, hbefore, p, hp, rfl, hmistyped⟩ := hfirst
  rw [List.map_append, List.nodup_append] at hnames
  obtain ⟨state, hentries, hseen⟩ := h.entries_of_admits hbefore hnames.1
    { record := start } fun _ _ => List.not_mem_nil
  -- Had the property been seen, its name would be that of a member before, too.
  have hunseen : p.name ∉ state.seen := by
    intro hmem
    rcases (hseen p.name).1 hmem with hmem | ⟨hmem, -⟩
    · cases hmem
    · exact hnames.2.2 _ hmem _ List.mem_cons_self rfl
  simp only [Json.toDoc, Shape.decode, Doc.untagged, Shape.ofEntries, toDocEntries_append,
    Json.toDocEntries, Shape.entries_append, hentries, bind, Except.bind, Shape.entries,
    h.entry_of_mistyped hp hmistyped hunseen]
  rfl

/-- Members that are admitted are all read, and a property that then has not been seen is one that
belongs to no member. -/
theorem exists_entries_eq (hadmits : ∀ member ∈ members, Admits properties member) :
    ∃ state,
      shape.entries .jsonValue { record := start } (Json.toDocEntries members) = .ok state ∧
        shape.missing? state = firstAbsent? properties members := by
  obtain ⟨state, hentries, hseen⟩ := h.entries_of_admits hadmits hnames
    { record := start } fun _ _ => List.not_mem_nil
  refine ⟨state, hentries, ?_⟩
  -- Both look for the first required name of which something holds, and for required names the two
  -- conditions are the same.
  rw [Shape.missing?, missing?_eq h.reads, firstAbsent?, ← List.head?_filter, ← List.head?_filter]
  refine congrArg List.head? (List.filter_congr fun name hname => ?_)
  obtain ⟨p, hp, rfl⟩ := List.mem_map.1 hname
  have hproperty : p.name ∈ properties.map (·.name) :=
    List.mem_map_of_mem (List.mem_of_mem_filter hp)
  have hgiven : p.name ∈ state.seen ↔ p.name ∈ members.map (·.1) := by
    rw [hseen, and_iff_left hproperty]
    exact or_iff_right List.not_mem_nil
  rw [List.contains_eq_mem, decide_not, decide_eq_decide.2 hgiven]

/-- When all members are admitted, the first property that must be given and belongs to no member
is reported. -/
theorem decode_of_absent (hadmits : ∀ member ∈ members, Admits properties member) {name : String}
    (habsent : firstAbsent? properties members = some name) :
    shape.decode start .jsonValue (Json.obj members).toDoc =
      .error (.shape (some []) (.missingField name)) := by
  obtain ⟨state, hentries, hmissing⟩ := h.exists_entries_eq hnames start hadmits
  simp only [Json.toDoc, Shape.decode, Doc.untagged, Shape.ofEntries, hentries, bind, Except.bind,
    hmissing, habsent]
  rfl

/-- When all members are admitted and all properties are given that must be, the record is read. -/
theorem exists_decode_eq_ok (hadmits : ∀ member ∈ members, Admits properties member)
    (hgiven : firstAbsent? properties members = none) :
    ∃ record, shape.decode start .jsonValue (Json.obj members).toDoc = .ok record := by
  obtain ⟨state, hentries, hmissing⟩ := h.exists_entries_eq hnames start hadmits
  refine ⟨state.record, ?_⟩
  simp only [Json.toDoc, Shape.decode, Doc.untagged, Shape.ofEntries, hentries, bind, Except.bind,
    hmissing, hgiven]
  rfl

/-- An object is refused for the first member that is not of its type, or else for the first
property that is absent, and for nothing else. -/
theorem decode_eq_error_iff (e : DecodeError) :
    shape.decode start .jsonValue (Json.obj members).toDoc = .error e ↔
      Refused properties members e := by
  constructor
  · intro herror
    -- Types are checked while members are read, and absence when all have been read.
    rcases forall_admits_or_firstMistyped properties members with hadmits | ⟨name, cause, hfirst⟩
    · cases habsent : firstAbsent? properties members with
      | none =>
        obtain ⟨record, hrecord⟩ := h.exists_decode_eq_ok hnames start hadmits habsent
        rw [hrecord] at herror
        cases herror
      | some name =>
        rw [h.decode_of_absent hnames start hadmits habsent] at herror
        cases herror
        exact .absent hadmits habsent
    · rw [h.decode_of_firstMistyped hnames start hfirst] at herror
      cases herror
      exact .mistyped hfirst
  · intro hrefused
    cases hrefused with
    | mistyped hfirst => exact h.decode_of_firstMistyped hnames start hfirst
    | absent hadmits habsent => exact h.decode_of_absent hnames start hadmits habsent

end Describes

end SqlWorkflow.Decode
