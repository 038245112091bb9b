import SqlWorkflow.Document.Decode
import SqlWorkflow.Json.Basic
import SqlWorkflow.Outcome
import Mathlib.Tactic.Common

/-!
# Records are read back

A record is written as an object whose members stand in the order of its fields; a member that has
nothing to say is left out, and a field that is not given keeps its default.

- **§1** Scalars, optional values, lists and dictionaries are read back (`Takes`), and so are
  members that are left out when they hold a default (`Carries`).
- **§2** The members of an object, one after the other, turn the empty record into the one that was
  written (`Fills`).
- **§3** A shape reads such an object (`Fills.takes`); entries that belong to none of its fields
  are kept aside (`entries_append_unknown`).
- **§4** An object whose first member names its variant is read as that variant (`takes_tagged`).
- **§5** Whatever a sequence or a record is read from, its parts have been read
  (`exists_of_list_eq_ok`, `Shape.exists_read_of_decode_eq_ok`).
-/

namespace SqlWorkflow.Decode

variable {α σ : Type}

/-! ## §1 Values -/

/-- The decoder reads `a` from a JSON value, wherever the value comes from. -/
def Takes (decode : Decoder α) (value : Json) (a : α) : Prop :=
  ∀ source, decode source value.toDoc = .ok a

theorem takes_string (s : String) : Takes string (.str s) s :=
  fun _ => rfl

theorem takes_bool (b : Bool) : Takes bool (.bool b) b :=
  fun _ => rfl

theorem takes_natural {bits n : Nat} (h : n < Nat.pow 2 bits) :
    Takes (natural bits) (.nat n) n := by
  intro source
  have hbound : (0 : Int) ≤ n ∧ (n : Int) < Nat.pow 2 bits :=
    ⟨Int.natCast_nonneg n, by exact_mod_cast h⟩
  simp only [Json.nat, Json.toDoc, natural, hbound, and_self, if_true, Int.toNat_natCast]

/-- A word that is one of several. -/
theorem takes_oneOf {variants : List (String × α)} {name : String} {a : α}
    (h : lookupEntry name variants = some a) : Takes (oneOf variants) (.str name) a := by
  intro source
  cases source <;> simp only [Json.toDoc, oneOf, h]

theorem takes_option {decode : Decoder α} {value : Json} {a : α} (h : Takes decode value a)
    (hnull : value ≠ .null) : Takes (option decode) value (some a) := by
  intro source
  have hvalue := h source
  cases value with
  | null => exact absurd rfl hnull
  | _ =>
    simp only [Json.toDoc] at hvalue ⊢
    simp only [option, hvalue]
    rfl

/-- Positions only matter to errors, so they may be any. -/
theorem elements_toDocs {decode : Decoder α} {encode : α → Json} {items : List α}
    (h : ∀ a ∈ items, Takes decode (encode a) a) (source : Source) (i : Nat) :
    elements decode source i (Json.toDocs (items.map encode)) = .ok items := by
  induction items generalizing i with
  | nil => rfl
  | cons a items ih =>
    have hfirst := h a List.mem_cons_self source
    have hothers := ih (fun b hb => h b (List.mem_cons_of_mem _ hb)) (i + 1)
    rw [List.map_cons, Json.toDocs, elements, hfirst, hothers]
    rfl

theorem takes_list {decode : Decoder α} {encode : α → Json} {items : List α}
    (h : ∀ a ∈ items, Takes decode (encode a) a) :
    Takes (list decode) (.arr (items.map encode)) items := by
  intro source
  simp only [Json.toDoc, list, Doc.untagged, elements_toDocs h]
  rfl

/-- The members are read in their order, which is the order of the dictionary. -/
theorem members_toDocEntries {decode : Decoder α} {encode : α → Json}
    {entries : List (String × α)} (h : ∀ entry ∈ entries, Takes decode (encode entry.2) entry.2)
    (source : Source) :
    members decode source
      (Json.toDocEntries (entries.map fun entry => (entry.1, encode entry.2))) = .ok entries := by
  induction entries with
  | nil => rfl
  | cons entry entries ih =>
    have hfirst := h entry List.mem_cons_self source
    have hothers := ih fun e he => h e (List.mem_cons_of_mem _ he)
    rw [List.map_cons, Json.toDocEntries, members, hfirst, hothers]
    rfl

theorem takes_dict {decode : Decoder α} {encode : α → Json} {d : Dict α}
    (h : ∀ entry ∈ d.entries, Takes decode (encode entry.2) entry.2) :
    Takes (dict decode) (Json.ofDict encode d) d := by
  intro source
  have hread : dict decode source (Json.ofDict encode d).toDoc =
      (Dict.ofList <$> (.ok d.entries : Except DecodeError _)).mapError DecodeError.place :=
    congrArg (fun found => (Dict.ofList <$> found).mapError DecodeError.place)
      (members_toDocEntries h source)
  rw [hread]
  exact congrArg Except.ok (Dict.ofList_entries d)

mutual

/-- The document of a value holds no fault. -/
theorem hasFault_toDoc : ∀ v : Json, v.toDoc.hasFault = false
  | .arr items => anyFault_toDocs items
  | .obj members => anyEntryFault_toDocEntries members
  | .null => rfl
  | .bool _ => rfl
  | .num _ => rfl
  | .str _ => rfl

theorem anyFault_toDocs : ∀ items : List Json, Doc.anyFault (Json.toDocs items) = false
  | [] => rfl
  | item :: rest => Bool.or_eq_false_iff.2 ⟨hasFault_toDoc item, anyFault_toDocs rest⟩

theorem anyEntryFault_toDocEntries :
    ∀ members : List (String × Json), Doc.anyEntryFault (Json.toDocEntries members) = false
  | [] => rfl
  | (_, value) :: rest =>
    Bool.or_eq_false_iff.2 ⟨hasFault_toDoc value, anyEntryFault_toDocEntries rest⟩

end

mutual

/-- The document of a value holds nothing that changes when it is set aside. -/
theorem setAside_toDoc : ∀ v : Json, setAside v.toDoc = .ok v.toDoc
  | .arr items => by rw [Json.toDoc, setAside, setAllAside_toDocs 0 items]; rfl
  | .obj members => by rw [Json.toDoc, setAside, setEntriesAside_toDocEntries members]; rfl
  | .null => rfl
  | .bool _ => rfl
  | .num _ => rfl
  | .str _ => rfl

theorem setAllAside_toDocs (i : Nat) : ∀ items : List Json,
    setAllAside i (Json.toDocs items) = .ok (Json.toDocs items)
  | [] => rfl
  | item :: rest => by
    rw [Json.toDocs, setAllAside, setAside_toDoc item, setAllAside_toDocs (i + 1) rest]
    rfl

theorem setEntriesAside_toDocEntries : ∀ members : List (String × Json),
    setEntriesAside (Json.toDocEntries members) = .ok (Json.toDocEntries members)
  | [] => rfl
  | (name, value) :: rest => by
    rw [Json.toDocEntries, setEntriesAside, setAside_toDoc value,
      setEntriesAside_toDocEntries rest]
    rfl

end

/-- The first decoder of several accepts the value that has been set aside. -/
theorem takes_firstOf {type : String} {decode : Decoder α} {others : List (Decoder α)}
    {value : Json} {a : α} (h : decode .aside value.toDoc = .ok a) :
    Takes (firstOf type (decode :: others)) value a := by
  intro source
  have hfirst : (decode :: others).findSome? (fun d => (d .aside value.toDoc).toOption) =
      some a := by
    rw [List.findSome?_cons, h]
    rfl
  rw [firstOf, setAside_toDoc]
  simp only [bind, Except.bind, hfirst]
  rfl

/-- A member holds `a`; the default is not written. -/
def Carries (decode : Decoder α) (value? : Option Json) (default a : α) : Prop :=
  (∃ value, value? = some value ∧ Takes decode value a) ∨ (value? = none ∧ a = default)

/-- A member that is always written. -/
theorem Takes.carries {decode : Decoder α} {value : Json} {a : α} (h : Takes decode value a)
    (default : α) : Carries decode (some value) default a :=
  .inl ⟨value, rfl, h⟩

/-- An optional value. -/
theorem carries_option {decode : Decoder α} {encode : α → Json} {a? : Option α}
    (h : ∀ a ∈ a?, Takes decode (encode a) a) (hnull : ∀ a, encode a ≠ .null) :
    Carries (option decode) (a?.map encode) none a? := by
  cases a? with
  | none => exact .inr ⟨rfl, rfl⟩
  | some a => exact .inl ⟨encode a, rfl, takes_option (h a rfl) (hnull a)⟩

/-- An optional text. -/
theorem carries_text (text? : Option String) :
    Carries (option string) (text?.map .str) none text? :=
  carries_option (fun s _ => takes_string s) fun _ h => Json.noConfusion h

theorem carries_list {decode : Decoder α} {encode : α → Json} {items : List α}
    (h : ∀ a ∈ items, Takes decode (encode a) a) :
    Carries (list decode) (if items.isEmpty then none else some (.arr (items.map encode))) []
      items := by
  cases items with
  | nil => exact .inr ⟨rfl, rfl⟩
  | cons a items => exact .inl ⟨_, rfl, takes_list h⟩

theorem carries_flag (b : Bool) :
    Carries bool (if b then some (.bool true) else none) false b := by
  cases b with
  | false => exact .inr ⟨rfl, rfl⟩
  | true => exact .inl ⟨_, rfl, takes_bool true⟩

theorem carries_dict {decode : Decoder α} {encode : α → Json} {d : Dict α}
    (h : ∀ entry ∈ d.entries, Takes decode (encode entry.2) entry.2) :
    Carries (dict decode) (if d.isEmpty then none else some (Json.ofDict encode d)) ∅ d := by
  by_cases hempty : d.isEmpty
  · refine .inr ⟨by simp [hempty], Dict.ext ?_⟩
    exact List.isEmpty_iff.1 hempty
  · exact .inl ⟨_, by simp [hempty], takes_dict h⟩

/-! ## §2 Members -/

/-- The entries of the document of an object. -/
def given (written : List (String × Option Json)) : List (Doc × Doc) :=
  Json.toDocEntries (written.filterMap fun (name, value?) => value?.map (name, ·))

theorem toDoc_present (written : List (String × Option Json)) :
    (Json.present written).toDoc = .map (given written) :=
  rfl

theorem given_some (name : String) (value : Json) (written : List (String × Option Json)) :
    given ((name, some value) :: written) = (.text name, value.toDoc) :: given written :=
  rfl

theorem given_none (name : String) (written : List (String × Option Json)) :
    given ((name, none) :: written) = given written :=
  rfl

theorem toDocEntries_append (first second : List (String × Json)) :
    Json.toDocEntries (first ++ second) = Json.toDocEntries first ++ Json.toDocEntries second := by
  induction first with
  | nil => rfl
  | cons member first ih => exact congrArg (List.cons _) ih

theorem given_append (first second : List (String × Option Json)) :
    given (first ++ second) = given first ++ given second := by
  rw [given, List.filterMap_append, toDocEntries_append]
  rfl

/-- One member for each field, in the order of the fields, turns one record into another.  A member
that is left out belongs to a field that need not be given, and changes nothing. -/
inductive Fills : List (Field σ) → List (String × Option Json) → σ → σ → Prop where
  | nil (r : σ) : Fills [] [] r r
  | present {f : Field σ} {fields : List (Field σ)} {value : Json}
      {written : List (String × Option Json)} {r r' r'' : σ} (hspelled : f.spellings = [f.name])
      (hread : ∀ source, f.read source value.toDoc r = .ok r')
      (rest : Fills fields written r' r'') :
      Fills (f :: fields) ((f.name, some value) :: written) r r''
  | absent {f : Field σ} {fields : List (Field σ)} {written : List (String × Option Json)}
      {r r' : σ} (hspelled : f.spellings = [f.name]) (hrequired : f.required = false)
      (rest : Fills fields written r r') :
      Fills (f :: fields) ((f.name, none) :: written) r r'

variable {fields : List (Field σ)} {written : List (String × Option Json)} {r r' : σ}

/-- A member that is always written, for a field that must be given. -/
theorem Fills.mandatory {name : String} {decode : Decoder α} {put : α → σ → σ} {value : Json}
    {a : α} (h : Takes decode value a) (rest : Fills fields written (put a r) r') :
    Fills ((field name decode put).mandatory :: fields) ((name, some value) :: written) r r' := by
  refine .present (f := (field name decode put).mandatory) rfl (fun source => ?_) rest
  change (decode source value.toDoc).map _ = _
  rw [h source]
  rfl

/-- A member that is left out if it holds the value that the record has at first. -/
theorem Fills.optional {name : String} {decode : Decoder α} {put : α → σ → σ}
    {value? : Option Json} {default a : α} (h : Carries decode value? default a)
    (hput : put default r = r) (rest : Fills fields written (put a r) r') :
    Fills (field name decode put :: fields) ((name, value?) :: written) r r' := by
  rcases h with ⟨value, rfl, htakes⟩ | ⟨rfl, rfl⟩
  · refine .present (f := field name decode put) rfl (fun source => ?_) rest
    change (decode source value.toDoc).map _ = _
    rw [htakes source]
    rfl
  · rw [hput] at rest
    exact .absent (f := field name decode put) rfl rfl rest

/-- The members have the names of the fields. -/
theorem Fills.names_eq (h : Fills fields written r r') :
    written.map (·.1) = fields.map (·.name) := by
  induction h with
  | nil => rfl
  | present _ _ _ ih => exact congrArg (List.cons _) ih
  | absent _ _ _ ih => exact congrArg (List.cons _) ih

/-- Every field that is written has one name; the other names of a field are for authors. -/
theorem Fills.spellings_eq (h : Fills fields written r r') :
    ∀ f ∈ fields, f.spellings = [f.name] := by
  induction h with
  | nil => intro f hf; cases hf
  | present hspelled _ _ ih => exact List.forall_mem_cons.2 ⟨hspelled, ih⟩
  | absent hspelled _ _ ih => exact List.forall_mem_cons.2 ⟨hspelled, ih⟩

/-- A field that has one name is found under it. -/
theorem find?_spellings_eq_some (hspelled : ∀ f ∈ fields, f.spellings = [f.name])
    (hnames : (fields.map (·.name)).Nodup) :
    ∀ f ∈ fields, fields.find? (fun g => g.spellings.contains f.name) = some f := by
  induction fields with
  | nil => intro f hf; cases hf
  | cons first fields ih =>
    intro f hf
    rw [List.map_cons, List.nodup_cons] at hnames
    rcases List.mem_cons.1 hf with rfl | hrest
    · exact List.find?_cons_of_pos (by simp [hspelled f hf])
    · have hne : first.name ≠ f.name :=
        fun heq => hnames.1 (heq ▸ List.mem_map_of_mem hrest)
      rw [List.find?_cons_of_neg (by simpa [hspelled first List.mem_cons_self] using hne.symm)]
      exact ih (fun g hg => hspelled g (List.mem_cons_of_mem _ hg)) hnames.2 f hrest

/-! ## §3 Records -/

namespace Shape

variable (shape : Shape σ) (source : Source)

theorem entries_append (state : Partial σ) (first second : List (Doc × Doc)) :
    shape.entries source state (first ++ second) =
      shape.entries source state first >>= fun state => shape.entries source state second := by
  induction first generalizing state with
  | nil => rfl
  | cons item first ih =>
    rw [List.cons_append, entries, entries, bind_assoc]
    exact bind_congr fun state => ih state

end Shape

/-- Members that belong to none of the fields are set aside, if the record keeps them. -/
theorem entries_unknown {shape : Shape σ} (hopen : shape.closed = false)
    (hkeeps : shape.keeps = true) (source : Source)
    {written : List (String × Option Json)}
    (hunknown : ∀ member ∈ written, ∀ f ∈ shape.fields, member.1 ∉ f.spellings)
    (state : Partial σ) :
    shape.entries source state (given written) =
      .ok { state with others := state.others ++ given written } := by
  induction written generalizing state with
  | nil => exact congrArg Except.ok (by rw [given]; simp [Json.toDocEntries])
  | cons member written ih =>
    obtain ⟨name, value?⟩ := member
    have hothers := ih (fun m hm => hunknown m (List.mem_cons_of_mem _ hm))
    cases value? with
    | none => exact hothers state
    | some value =>
      -- No field asks for the member, and its value does not change when it is set aside.
      have hnone : shape.fields.find? (fun f => f.spellings.contains name) = none := by
        refine List.find?_eq_none.2 fun f hf => ?_
        simpa using hunknown _ List.mem_cons_self f hf
      have hentry : shape.entry source state (.text name) value.toDoc =
          .ok { state with others := state.others ++ [(.text name, value.toDoc)] } := by
        simp only [Shape.entry, textAs, bind, Except.bind, hnone, hopen, hkeeps, setAside_toDoc]
        rfl
      rw [given_some, Shape.entries, hentry]
      refine (hothers _).trans ?_
      rw [List.append_assoc]
      rfl

/-- Reading the members fills the record; fields that must be given have been seen. -/
theorem Fills.entries_eq {shape : Shape σ} (h : Fills fields written r r')
    (hfound : ∀ f ∈ fields, shape.fields.find? (fun g => g.spellings.contains f.name) = some f)
    (hnames : (fields.map (·.name)).Nodup) (source : Source) (others : List (Doc × Doc))
    (seen : List String) (hseen : ∀ f ∈ fields, f.name ∉ seen) :
    ∃ seen', shape.entries source ⟨r, seen, others⟩ (given written) = .ok ⟨r', seen', others⟩ ∧
      (∀ f ∈ fields, f.required = true → f.name ∈ seen') ∧ seen ⊆ seen' := by
  induction h generalizing seen with
  | nil r => exact ⟨seen, rfl, fun f hf => (List.not_mem_nil hf).elim, fun _ h => h⟩
  | @present f fields value written r r' r'' hspelled hread rest ih =>
    rw [List.map_cons, List.nodup_cons] at hnames
    -- A name that has been seen does not come again, since names differ.
    have hfresh : ∀ g ∈ fields, g.name ∉ f.name :: seen := by
      intro g hg hmem
      rcases List.mem_cons.1 hmem with heq | hmem
      · exact hnames.1 (heq ▸ List.mem_map_of_mem hg)
      · exact hseen g (List.mem_cons_of_mem _ hg) hmem
    obtain ⟨seen', hentries, hrequired, hsub⟩ :=
      ih (fun g hg => hfound g (List.mem_cons_of_mem _ hg)) hnames.2 (f.name :: seen) hfresh
    have hself : f.name ∈ seen' := hsub List.mem_cons_self
    have hentry : shape.entry source ⟨r, seen, others⟩ (.text f.name) value.toDoc =
        .ok ⟨r', f.name :: seen, others⟩ := by
      have hunseen : seen.contains f.name = false := by
        simpa using hseen f List.mem_cons_self
      simp only [Shape.entry, textAs, bind, Except.bind, hfound f List.mem_cons_self, hunseen,
        hread source]
      rfl
    refine ⟨seen', ?_, ?_, fun name hname => hsub (List.mem_cons_of_mem _ hname)⟩
    · rw [given_some, Shape.entries, hentry]
      exact hentries
    · exact List.forall_mem_cons.2 ⟨fun _ => hself, hrequired⟩
  | @absent f fields written r r' hspelled hoptional rest ih =>
    rw [List.map_cons, List.nodup_cons] at hnames
    obtain ⟨seen', hentries, hrequired, hsub⟩ :=
      ih (fun g hg => hfound g (List.mem_cons_of_mem _ hg)) hnames.2 seen
        fun g hg => hseen g (List.mem_cons_of_mem _ hg)
    -- A field that must be given is never left out.
    refine ⟨seen', hentries, List.forall_mem_cons.2 ⟨fun hreq => ?_, hrequired⟩, hsub⟩
    rw [hoptional] at hreq
    cases hreq

variable {shape : Shape σ} {start : σ}

/-- After entries that belong to no field, the members of a record give the record. -/
theorem Fills.ofEntries_append (h : Fills shape.fields written start r)
    (hnames : (shape.fields.map (·.name)).Nodup) (source : Source) (before : List (Doc × Doc))
    (hbefore : shape.entries source { record := start } before =
      .ok { record := start, others := before }) :
    ∃ seen, shape.ofEntries source start (before ++ given written) = .ok ⟨r, seen, before⟩ := by
  obtain ⟨seen, hentries, hrequired, -⟩ :=
    h.entries_eq (find?_spellings_eq_some h.spellings_eq hnames) hnames source before []
      fun f _ => List.not_mem_nil
  have hnone : shape.missing? ⟨r, seen, before⟩ = none := by
    simp only [Shape.missing?, Option.map_eq_none_iff, List.find?_eq_none, Bool.and_eq_true,
      Bool.not_eq_true', List.contains_eq_mem, decide_eq_false_iff_not, not_and, not_not]
    exact hrequired
  refine ⟨seen, ?_⟩
  simp only [Shape.ofEntries, Shape.entries_append, hbefore, bind, Except.bind, hentries, hnone]

/-- A record is read back from the object of its members. -/
theorem Fills.takes (h : Fills shape.fields written start r)
    (hnames : (shape.fields.map (·.name)).Nodup) :
    Takes (shape.decode start) (Json.present written) r := by
  intro source
  obtain ⟨seen, hread⟩ := h.ofEntries_append hnames source [] rfl
  rw [List.nil_append] at hread
  simp only [toDoc_present, Shape.decode, Doc.untagged, hread]
  rfl

/-! ## §4 Variants -/

/-- Members after the one that names the variant are set aside. -/
theorem taggedEntries_of_chosen {tag : String} {variants : List (String × α)} {source : Source}
    {chosen : α} {members : List (String × Json)} (h : ∀ member ∈ members, member.1 ≠ tag) :
    taggedEntries tag variants source (some chosen) (Json.toDocEntries members) =
      .ok (some chosen, Json.toDocEntries members) := by
  induction members with
  | nil => rfl
  | cons member rest ih =>
    obtain ⟨name, value⟩ := member
    have hname : (name == tag) = false := beq_false_of_ne (h _ List.mem_cons_self)
    have hrest := ih fun m hm => h m (List.mem_cons_of_mem _ hm)
    rw [Json.toDocEntries, taggedEntries]
    simp only [setAside, bind, Except.bind, hname, setAside_toDoc, hrest]
    rfl

/-- A variant is read back from an object whose first member names it. -/
theorem takes_tagged {title tag name : String} {variants : List (String × Decoder α)}
    (decode : Decoder α) {members : List (String × Json)} {a : α}
    (hvariant : lookupEntry name variants = some decode)
    (hmembers : ∀ member ∈ members, member.1 ≠ tag) (h : Takes decode (.obj members) a) :
    Takes (tagged title tag variants) (.obj ((tag, .str name) :: members)) a := by
  intro source
  have hchosen : taggedEntries.variantOf variants source (.text name) = .ok decode := by
    unfold taggedEntries.variantOf
    simp only [textAs, bind, Except.bind, hvariant]
    rfl
  have hentries : taggedEntries tag variants source none
      (Json.toDocEntries ((tag, .str name) :: members)) =
      .ok (some decode, Json.toDocEntries members) := by
    rw [Json.toDocEntries, taggedEntries]
    simp only [setAside, bind, Except.bind, BEq.rfl, Json.toDoc, hchosen, Bool.false_eq_true,
      if_false, if_true, Option.isSome_none]
    exact taggedEntries_of_chosen hmembers
  simp only [Json.toDoc, tagged, hentries]
  exact h .aside

/-! ## §5 What has been read -/

/-- The elements of a sequence that is read are read. -/
theorem exists_of_elements_eq_ok {decode : Decoder α} {source : Source} {i : Nat}
    {docs : List Doc} {values : List α} (h : elements decode source i docs = .ok values) :
    ∀ doc ∈ docs, ∃ a, decode source doc = .ok a := by
  induction docs generalizing i values with
  | nil => exact List.forall_mem_nil _
  | cons doc docs ih =>
    obtain ⟨first, hfirst, hbind⟩ := exists_of_bind_eq_ok h
    obtain ⟨others, hothers, -⟩ := exists_of_bind_eq_ok hbind
    exact List.forall_mem_cons.2 ⟨⟨first, eq_ok_of_mapError_eq_ok hfirst⟩, ih hothers⟩

theorem exists_of_list_eq_ok {decode : Decoder α} {source : Source} {docs : List Doc}
    {values : List α} (h : list decode source (.seq docs) = .ok values) :
    ∀ doc ∈ docs, ∃ a, decode source doc = .ok a :=
  exists_of_elements_eq_ok (eq_ok_of_mapError_eq_ok h)

namespace Shape

variable {source : Source} {entries : List (Doc × Doc)} {read : Partial σ}

/-- The entries of a record that is read are read one by one. -/
theorem exists_entry_of_ofEntries_eq_ok (h : shape.ofEntries source start entries = .ok read) :
    ∀ e ∈ entries, ∃ before after, shape.entry source before e.1 e.2 = .ok after := by
  obtain ⟨last, hentries, -⟩ := exists_of_bind_eq_ok h
  clear h
  generalize ({ record := start } : Partial σ) = state at hentries
  induction entries generalizing state with
  | nil => exact List.forall_mem_nil _
  | cons e entries ih =>
    obtain ⟨after, hentry, hrest⟩ := exists_of_bind_eq_ok hentries
    exact List.forall_mem_cons.2 ⟨⟨state, after, hentry⟩, ih after hrest⟩

/-- The value of a field has been read. -/
theorem exists_read_of_decode_eq_ok (hspelled : ∀ f ∈ shape.fields, f.spellings = [f.name])
    (hnames : (shape.fields.map (·.name)).Nodup)
    (h : shape.decode start source (.map entries) = .ok r) {f : Field σ} (hf : f ∈ shape.fields)
    {value : Doc} (hvalue : (.text f.name, value) ∈ entries) :
    ∃ before after, f.read source value before = .ok after := by
  obtain ⟨read, hread, -⟩ := exists_of_map_eq_ok (eq_ok_of_mapError_eq_ok h)
  obtain ⟨before, after, hentry⟩ := exists_entry_of_ofEntries_eq_ok hread _ hvalue
  have hfind := find?_spellings_eq_some hspelled hnames f hf
  simp only [entry, textAs, bind, Except.bind, hfind] at hentry
  split at hentry
  · cases hentry
  · obtain ⟨record, hrecord, -⟩ := exists_of_bind_eq_ok hentry
    exact ⟨before.record, record, eq_ok_of_mapError_eq_ok hrecord⟩

/-- The value of an entry that belongs to no field has been set aside. -/
theorem exists_setAside_of_ofEntries_eq_ok
    (h : shape.ofEntries source start entries = .ok read) (hopen : shape.closed = false)
    (hkeeps : shape.keeps = true)
    {name : String} (hname : ∀ f ∈ shape.fields, name ∉ f.spellings) {value : Doc}
    (hvalue : (.text name, value) ∈ entries) : ∃ doc, setAside value = .ok doc := by
  obtain ⟨before, after, hentry⟩ := exists_entry_of_ofEntries_eq_ok h _ hvalue
  have hnone : shape.fields.find? (fun f => f.spellings.contains name) = none :=
    List.find?_eq_none.2 fun f hf => by simpa using hname f hf
  simp only [entry, textAs, bind, Except.bind, hnone, hopen, hkeeps] at hentry
  obtain ⟨doc, hdoc, -⟩ := exists_of_bind_eq_ok hentry
  exact ⟨doc, eq_ok_of_mapError_eq_ok hdoc⟩

end Shape

end SqlWorkflow.Decode
