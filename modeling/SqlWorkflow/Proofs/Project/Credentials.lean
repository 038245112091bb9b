import SqlWorkflow.Outcome
import SqlWorkflow.Project.Credentials
import SqlWorkflow.Proofs.Document.Objects

/-!
# Required properties of credentials

Which properties credentials must have is said twice: in a list that is gone through before
anything is read, and by the fields of the credentials, which are read after that.  The two agree:
reading an object misses a property just when the list names one that is no member
(`Kind.decode_eq_missingField_iff`).  So once the list has been gone through, reading can only fail
because some value is not of its type (`ofJson_obj_exact`).

- **§1** The properties of each kind of credentials, and what becomes of an object.
- **§2** Properties that are absent or null.
- **§3** Credentials for a warehouse.
-/

namespace SqlWorkflow.Credentials

open Decode

/-! ## §1 Properties -/

/-- The properties of the credentials of a kind. -/
def Kind.properties : Kind → List Property
  | .bigquery =>
    [ ⟨"projectId", .text, true⟩, ⟨"credentials", .text, true⟩,
      ⟨"location", .optional .text, false⟩ ]
  | .server =>
    [ ⟨"host", .text, true⟩, ⟨"port", .natural 16, true⟩, ⟨"username", .text, true⟩,
      ⟨"password", .text, true⟩, ⟨"databaseName", .text, true⟩, ⟨"ssl", .flag, false⟩ ]
  | .snowflake =>
    [ ⟨"accountId", .text, true⟩, ⟨"username", .text, true⟩, ⟨"password", .text, true⟩,
      ⟨"role", .text, true⟩, ⟨"databaseName", .text, true⟩, ⟨"warehouse", .text, true⟩ ]
  | .sqlDataWarehouse =>
    [ ⟨"server", .text, true⟩, ⟨"port", .natural 16, true⟩, ⟨"username", .text, true⟩,
      ⟨"password", .text, true⟩, ⟨"database", .text, true⟩ ]

/-- The list of properties that must be present names those that must be given. -/
theorem Kind.required_eq (kind : Kind) : kind.required = requiredNames kind.properties := by
  cases kind <;> rfl

theorem Kind.nodup_names (kind : Kind) : (kind.properties.map (·.name)).Nodup := by
  cases kind <;> decide

theorem reads_text {σ : Type} (name : String) (put : String → σ → σ) :
    Reads ⟨name, .text, true⟩ (neededProperty name Decode.string put) :=
  (judges_string.reads name put).mandatory

theorem reads_port {σ : Type} (name : String) (put : Nat → σ → σ) :
    Reads ⟨name, .natural 16, true⟩ (neededProperty name (Decode.natural 16) put) :=
  ((judges_natural 16).reads name put).mandatory

theorem describes_bigquery : Describes Kind.bigquery.properties BigQueryCredentials.shape where
  isOpen := rfl
  keepsNone := rfl
  nodup_names := Kind.bigquery.nodup_names
  reads :=
    .cons (reads_text _ _) <| .cons (reads_text _ _) <| .cons (judges_string.option.reads _ _) .nil

theorem describes_server : Describes Kind.server.properties ServerCredentials.shape where
  isOpen := rfl
  keepsNone := rfl
  nodup_names := Kind.server.nodup_names
  reads :=
    .cons (reads_text _ _) <| .cons (reads_port _ _) <| .cons (reads_text _ _) <|
      .cons (reads_text _ _) <| .cons (reads_text _ _) <| .cons (judges_bool.reads _ _) .nil

theorem describes_snowflake :
    Describes Kind.snowflake.properties SnowflakeCredentials.shape where
  isOpen := rfl
  keepsNone := rfl
  nodup_names := Kind.snowflake.nodup_names
  reads :=
    .cons (reads_text _ _) <| .cons (reads_text _ _) <| .cons (reads_text _ _) <|
      .cons (reads_text _ _) <| .cons (reads_text _ _) <| .cons (reads_text _ _) .nil

theorem describes_sqlDataWarehouse :
    Describes Kind.sqlDataWarehouse.properties SqlDataWarehouseCredentials.shape where
  isOpen := rfl
  keepsNone := rfl
  nodup_names := Kind.sqlDataWarehouse.nodup_names
  reads :=
    .cons (reads_text _ _) <| .cons (reads_port _ _) <| .cons (reads_text _ _) <|
      .cons (reads_text _ _) <| .cons (reads_text _ _) .nil

/-- Credentials of each kind are read as a record with their properties. -/
theorem Kind.exists_shape (kind : Kind) :
    ∃ (σ : Type) (shape : Shape σ) (start : σ) (wrap : σ → Credentials),
      Describes kind.properties shape ∧
        ∀ doc, kind.decode .jsonValue doc = (shape.decode start .jsonValue doc).map wrap := by
  cases kind with
  | bigquery => exact ⟨_, _, _, _, describes_bigquery, fun _ => rfl⟩
  | server => exact ⟨_, _, _, _, describes_server, fun _ => rfl⟩
  | snowflake => exact ⟨_, _, _, _, describes_snowflake, fun _ => rfl⟩
  | sqlDataWarehouse => exact ⟨_, _, _, _, describes_sqlDataWarehouse, fun _ => rfl⟩

variable {members : List (String × Json)} {name : String}

theorem Kind.firstAbsent?_eq (kind : Kind) (members : List (String × Json)) :
    firstAbsent? kind.properties members = kind.required.find? (· ∉ members.map (·.1)) := by
  rw [kind.required_eq]
  rfl

/-- An object is refused for what its properties tell, and for nothing else. -/
theorem Kind.decode_eq_error_iff (kind : Kind) (hnames : (members.map (·.1)).Nodup)
    (e : DecodeError) :
    kind.decode .jsonValue (Json.obj members).toDoc = .error e ↔
      Refused kind.properties members e := by
  obtain ⟨σ, shape, start, wrap, hdescribes, hdecode⟩ := kind.exists_shape
  rw [hdecode, ← hdescribes.decode_eq_error_iff hnames start]
  constructor
  · exact eq_error_of_map_eq_error
  · intro h
    rw [h]
    rfl

/-- Reading an object misses a property just when its members are all of their types and the
property is the first of the required ones that is no member. -/
theorem Kind.decode_eq_missingField_iff (kind : Kind) (hnames : (members.map (·.1)).Nodup)
    (path : Option (List Step)) (name : String) :
    kind.decode .jsonValue (Json.obj members).toDoc = .error (.shape path (.missingField name)) ↔
      path = some [] ∧ (∀ member ∈ members, Admits kind.properties member) ∧
        kind.required.find? (· ∉ members.map (·.1)) = some name := by
  rw [kind.decode_eq_error_iff hnames, refused_missingField_iff, kind.firstAbsent?_eq]

/-! ## §2 Absent properties -/

/-- The property is absent or null. -/
def Lacks (members : List (String × Json)) (name : String) : Prop :=
  ∀ member ∈ members, member.1 = name → member.2 = .null

instance (value : Json) : Decidable (value = .null) :=
  match value with
  | .null => isTrue rfl
  | .bool _ | .num _ | .str _ | .arr _ | .obj _ => isFalse Json.noConfusion

instance (members : List (String × Json)) (name : String) : Decidable (Lacks members name) :=
  inferInstanceAs (Decidable (∀ member ∈ members, _))

theorem mem_of_not_lacks (h : ¬ Lacks members name) : name ∈ members.map (·.1) := by
  simp only [Lacks, not_forall] at h
  obtain ⟨member, hmember, rfl, -⟩ := h
  exact List.mem_map_of_mem hmember

/-- A value is found under a name if it is the value of the member with this name. -/
theorem lookupEntry_eq_some_iff (hnames : (members.map (·.1)).Nodup) (value : Json) :
    lookupEntry name members = some value ↔ (name, value) ∈ members := by
  induction members with
  | nil => simp [lookupEntry]
  | cons member rest ih =>
    obtain ⟨other, first⟩ := member
    rw [List.map_cons, List.nodup_cons] at hnames
    rw [lookupEntry, List.mem_cons, Prod.mk.injEq]
    split
    case isTrue heq =>
      subst heq
      have hrest : (name, value) ∉ rest := fun hmem =>
        hnames.1 (List.mem_map.2 ⟨(name, value), hmem, rfl⟩)
      rw [or_iff_left hrest, Option.some.injEq, eq_comm, and_iff_right rfl]
    case isFalse hne =>
      rw [ih hnames.2, or_iff_right fun h => hne h.1]

theorem lacks_iff (hnames : (members.map (·.1)).Nodup) :
    Lacks members name ↔ ∀ value, lookupEntry name members = some value → value = .null := by
  simp only [lookupEntry_eq_some_iff hnames]
  constructor
  · exact fun h value hmem => h (name, value) hmem rfl
  · rintro h ⟨other, value⟩ hmem rfl
    exact h value hmem

/-- The properties that are reported are those that are absent or null. -/
theorem missing_eq (kind : Kind) (hnames : (members.map (·.1)).Nodup) :
    missing kind members = kind.required.filter (Lacks members ·) := by
  refine List.filter_congr fun name _ => ?_
  rw [Bool.eq_iff_iff, decide_eq_true_iff, lacks_iff hnames]
  cases lookupEntry name members with
  | none => simp
  | some value => cases value <;> simp

/-! ## §3 Credentials for a warehouse -/

theorem ofJson_obj {warehouse : String} {kind : Kind}
    (hkind : Kind.ofWarehouse? warehouse = some kind) (members : List (String × Json)) :
    ofJson warehouse (.obj members) =
      if (missing kind members).isEmpty then
        (kind.decode .jsonValue (Json.obj members).toDoc).mapError (.malformed .jsonValue)
      else .error (.missing (missing kind members)) := by
  simp only [ofJson, hkind]

/-- The required properties that are absent or null are reported, all of them in the order of the
list, just when there are any. -/
theorem ofJson_eq_missing_iff {warehouse : String} {kind : Kind}
    (hkind : Kind.ofWarehouse? warehouse = some kind) (hnames : (members.map (·.1)).Nodup)
    (names : List String) :
    ofJson warehouse (.obj members) = .error (.missing names) ↔
      names ≠ [] ∧ names = kind.required.filter (Lacks members ·) := by
  rw [ofJson_obj hkind, ← missing_eq kind hnames]
  split
  case isTrue hnone =>
    rw [List.isEmpty_iff] at hnone
    rw [hnone]
    constructor
    · intro h
      -- What is read after the list has been gone through is reported in another way.
      obtain ⟨e, -, heq⟩ := mapError_eq_error_iff.1 h
      cases heq
    · rintro ⟨hne, rfl⟩
      exact absurd rfl hne
  case isFalse hsome =>
    rw [List.isEmpty_iff] at hsome
    constructor
    · intro h
      cases h
      exact ⟨hsome, rfl⟩
    · rintro ⟨-, rfl⟩
      rfl

section Given

variable {warehouse : String} {kind : Kind} (hkind : Kind.ofWarehouse? warehouse = some kind)
  (hnames : (members.map (·.1)).Nodup) (hgiven : ∀ name ∈ kind.required, ¬ Lacks members name)

include hgiven in
/-- A property that is not null is given. -/
theorem firstAbsent?_of_given : firstAbsent? kind.properties members = none := by
  rw [kind.firstAbsent?_eq, List.find?_eq_none]
  exact fun name hname => by simpa using mem_of_not_lacks (hgiven name hname)

include hkind hnames hgiven

/-- When no required property is absent or null, reading is what remains. -/
theorem ofJson_of_given :
    ofJson warehouse (.obj members) =
      (kind.decode .jsonValue (Json.obj members).toDoc).mapError (.malformed .jsonValue) := by
  have hnone : missing kind members = [] := by
    rw [missing_eq kind hnames, List.filter_eq_nil_iff]
    simpa using hgiven
  rw [ofJson_obj hkind, hnone]
  rfl

/-- Then what goes wrong is that the value of some member is not of its type. -/
theorem ofJson_eq_error_iff_of_given (e : CredentialsError) :
    ofJson warehouse (.obj members) = .error e ↔
      ∃ name cause, FirstMistyped kind.properties members name cause ∧
        e = .malformed .jsonValue (.shape (some [.key name]) cause) := by
  simp only [ofJson_of_given hkind hnames hgiven, mapError_eq_error_iff,
    kind.decode_eq_error_iff hnames, refused_iff_of_given (firstAbsent?_of_given hgiven)]
  constructor
  · rintro ⟨_, ⟨name, cause, hfirst, rfl⟩, rfl⟩
    exact ⟨name, cause, hfirst, rfl⟩
  · rintro ⟨name, cause, hfirst, rfl⟩
    exact ⟨_, ⟨name, cause, hfirst, rfl⟩, rfl⟩

/-- Then there are credentials if the values of all members are of their types. -/
theorem exists_ofJson_eq_ok_iff_of_given :
    (∃ c, ofJson warehouse (.obj members) = .ok c) ↔
      ∀ member ∈ members, Admits kind.properties member := by
  have herrors := ofJson_eq_error_iff_of_given hkind hnames hgiven
  constructor
  · rintro ⟨c, hc⟩
    refine (forall_admits_or_firstMistyped _ members).resolve_right ?_
    rintro ⟨name, cause, hfirst⟩
    rw [(herrors _).2 ⟨name, cause, hfirst, rfl⟩] at hc
    cases hc
  · intro hadmits
    cases hread : ofJson warehouse (.obj members) with
    | ok c => exact ⟨c, rfl⟩
    | error e =>
      obtain ⟨name, cause, hfirst, -⟩ := (herrors e).1 hread
      exact absurd hadmits hfirst.not_admits

end Given

/-- Absent properties are reported just when some required property is absent or null, and all of
them are listed in their order.  Reading misses a property just when all members are of their types
and a required property is no member; the first such property is the one that is missed.  So, when
no required property is absent or null, reading never misses one: it succeeds if the values of all
members are of their types, and otherwise the first one that is of another type or out of range is
reported.  The members of an object have different names. -/
theorem ofJson_obj_exact {warehouse : String} {kind : Kind}
    (hkind : Kind.ofWarehouse? warehouse = some kind) (hnames : (members.map (·.1)).Nodup) :
    (∀ names, ofJson warehouse (.obj members) = .error (.missing names) ↔
      names ≠ [] ∧ names = kind.required.filter (Lacks members ·)) ∧
    (∀ path name, kind.decode .jsonValue (Json.obj members).toDoc =
        .error (.shape path (.missingField name)) ↔
      path = some [] ∧ (∀ member ∈ members, Admits kind.properties member) ∧
        kind.required.find? (· ∉ members.map (·.1)) = some name) ∧
    ((∀ name ∈ kind.required, ¬ Lacks members name) →
      (∀ path name, kind.decode .jsonValue (Json.obj members).toDoc ≠
        .error (.shape path (.missingField name))) ∧
      ((∃ c, ofJson warehouse (.obj members) = .ok c) ↔
        ∀ member ∈ members, Admits kind.properties member) ∧
      ∀ e, ofJson warehouse (.obj members) = .error e ↔
        ∃ name cause, FirstMistyped kind.properties members name cause ∧
          e = .malformed .jsonValue (.shape (some [.key name]) cause)) := by
  have hmissed := kind.decode_eq_missingField_iff hnames
  refine ⟨ofJson_eq_missing_iff hkind hnames, hmissed, fun hgiven => ⟨fun path name h => ?_,
    exists_ofJson_eq_ok_iff_of_given hkind hnames hgiven,
    ofJson_eq_error_iff_of_given hkind hnames hgiven⟩⟩
  -- The property that is missed is no member, and so it is absent.
  have habsent := ((hmissed path name).1 h).2.2
  rw [← kind.firstAbsent?_eq, firstAbsent?_of_given hgiven] at habsent
  cases habsent

/-- A server whose port is out of range, and whose last member is null where a truth value is
expected. -/
def beyondPorts : List (String × Json) :=
  [ ("host", .str "localhost"), ("port", .nat 65536), ("username", .str "reader"),
    ("password", .str ""), ("databaseName", .str "sales"), ("ssl", .null) ]

/-- All that is required is there, and of the two values that are not of their types the port is
reported. -/
theorem ofJson_obj_exact_beyondPorts :
    Kind.ofWarehouse? "redshift" = some .server ∧ (beyondPorts.map (·.1)).Nodup ∧
      (∀ name ∈ Kind.server.required, ¬ Lacks beyondPorts name) ∧
      ofJson "redshift" (.obj beyondPorts) = .error
        (.malformed .jsonValue
          (.shape (some [.key "port"]) (.invalidValue (.integer 65536) "u16"))) := by
  have hkind : Kind.ofWarehouse? "redshift" = some .server := by decide
  have hnames : (beyondPorts.map (·.1)).Nodup := by decide
  have hgiven : ∀ name ∈ Kind.server.required, ¬ Lacks beyondPorts name := by decide
  have hbefore : ∀ member ∈ beyondPorts.take 1, Admits Kind.server.properties member := by
    intro member hmember p hp hname
    obtain rfl := List.mem_singleton.1 hmember
    obtain rfl : p = ⟨"host", .text, true⟩ :=
      List.inj_on_of_nodup_map Kind.server.nodup_names hp (by decide) hname
    exact .text "localhost"
  have hport : Mistyped (.natural 16) (.nat 65536) (.invalidValue (.integer 65536) "u16") :=
    .outOfRange (.inr (by decide))
  have hfirst : FirstMistyped Kind.server.properties beyondPorts "port"
      (.invalidValue (.integer 65536) "u16") :=
    ⟨beyondPorts.take 1, _, beyondPorts.drop 2, rfl, hbefore, ⟨"port", .natural 16, true⟩,
      by decide, rfl, hport⟩
  have herrors := ((ofJson_obj_exact hkind hnames).2.2 hgiven).2.2
  exact ⟨hkind, hnames, hgiven, (herrors _).2 ⟨"port", _, hfirst, rfl⟩⟩

end SqlWorkflow.Credentials
