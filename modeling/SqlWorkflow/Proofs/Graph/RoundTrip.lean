import SqlWorkflow.Graph.Encoding
import SqlWorkflow.Proofs.Action.RoundTrip
import SqlWorkflow.Proofs.Json.Reading

/-!
# Graphs are read back

Main statement: both texts of a graph are read back as the graph exactly if the documentation of
its columns is not too deep for the reader of JSON text; other texts are refused
(`CompiledGraph.ofText_iff_readable`).

- **§1** Targets and settings.
- **§2** Actions: the members that all actions have in common are found among all members
  (`takes_decodeAction`).
- **§3** Tests and problems.
- **§4** Nothing but the documentation of its columns makes a graph deep (`ActionHeader.Sizes`).
- **§5** An action is not read if its documentation is too deep (`within_of_decodeAction_eq_ok`).
- **§6** Graphs.
-/

namespace SqlWorkflow

open Decode

/-! ## §1 Targets and settings -/

theorem Target.takes (t : Target) : Takes Target.decode t.toJson t := by
  refine Fills.takes (?_ : Fills Target.shape.fields _ ⟨none, "", ""⟩ t) (by decide)
  refine .optional (carries_text t.database) rfl ?_
  refine .mandatory (takes_string t.schema) ?_
  refine .mandatory (takes_string t.name) ?_
  exact .nil t

theorem Target.toJson_ne_null (t : Target) : t.toJson ≠ .null :=
  fun h => Json.noConfusion h

theorem ProjectConfig.takes (c : ProjectConfig) : Takes ProjectConfig.decode c.toJson c := by
  have hwarehouse : lookupEntry c.warehouse.name [("bigquery", Warehouse.bigquery)] =
      some c.warehouse := by
    cases c.warehouse
    rfl
  refine Fills.takes (?_ : Fills ProjectConfig.shape.fields _ {} c) (by decide)
  refine .mandatory (takes_oneOf hwarehouse) ?_
  refine .optional (carries_text c.defaultDatabase) rfl ?_
  refine .mandatory (takes_string c.defaultSchema) ?_
  refine .optional (carries_text c.defaultLocation) rfl ?_
  refine .mandatory (takes_string c.assertionSchema) ?_
  refine .optional (carries_text c.databaseSuffix) rfl ?_
  refine .optional (carries_text c.schemaSuffix) rfl ?_
  refine .optional (carries_text c.tablePrefix) rfl ?_
  refine .optional (carries_dict fun entry _ => takes_string entry.2) rfl ?_
  refine .optional (carries_text c.coreVersion) rfl ?_
  exact .nil c

/-! ## §2 Actions -/

theorem ActionHeader.fills (h : ActionHeader) :
    Fills ActionHeader.shape.fields h.members default h := by
  refine .mandatory h.target.takes ?_
  refine .mandatory h.canonicalTarget.takes ?_
  refine .mandatory (takes_string h.fileName) ?_
  refine .optional (carries_list fun t _ => t.takes) rfl ?_
  refine .optional (carries_list fun s _ => takes_string s) rfl ?_
  refine .optional (carries_flag h.disabled) rfl ?_
  refine .optional (carries_option (fun d _ => d.takes) fun _ h => Json.noConfusion h) rfl ?_
  exact .nil h

/-- An action is read back if none of its own fields has a name that all actions have in
common. -/
theorem takes_decodeAction {α : Type} {shape : Shape α} {start a b : α}
    {put : ActionHeader → α → α} {own : List (String × Option Json)} (header : ActionHeader)
    (hput : put header a = b) (hopen : shape.closed = false) (hown : Fills shape.fields own start a)
    (hnames : (shape.fields.map (·.name)).Nodup)
    (hapart : ∀ name ∈ ActionHeader.shape.fields.map (·.name), ∀ f ∈ shape.fields,
      name ∉ f.spellings) :
    Takes (decodeAction shape start put) (Json.present (header.members ++ own)) b := by
  intro source
  have hfills := header.fills
  -- The members of the header come first, and the action's own fields know none of them.
  let keeping : Shape α := { shape with keeps := true }
  have hothers : keeping.entries source { record := start } (given header.members) =
      .ok { record := start, others := given header.members } := by
    have hkeeping : keeping.closed = false := hopen
    refine entries_unknown hkeeping rfl source (fun member hmember => ?_) _
    exact hapart member.1 (hfills.names_eq ▸ List.mem_map_of_mem hmember)
  have hkept : Fills keeping.fields own start a := hown
  obtain ⟨seen, hread⟩ := hkept.ofEntries_append hnames source (given header.members) hothers
  obtain ⟨common, hcommon⟩ := hfills.ofEntries_append (by decide) .aside [] rfl
  rw [List.nil_append] at hcommon
  simp only [toDoc_present, given_append, decodeAction, Doc.untagged, bind, Except.bind]
  rw [hread]
  simp only [hcommon, ← hput]
  rfl

theorem TableType.lookupEntry_name (type : TableType) :
    lookupEntry type.name TableType.byName = some type := by
  cases type <;> rfl

theorem Table.takes (t : Table) : Takes Table.decode t.toJson t := by
  unfold Table.decode Table.toJson
  refine takes_decodeAction (a := { t with header := default }) t.header rfl rfl ?_ (by decide)
    (by decide)
  refine .mandatory (takes_oneOf t.type.lookupEntry_name) ?_
  refine .mandatory (takes_string t.query) ?_
  refine .optional (carries_text t.incrementalQuery) rfl ?_
  refine .optional (carries_list fun s _ => takes_string s) rfl ?_
  refine .optional (carries_list fun s _ => takes_string s) rfl ?_
  refine .optional (carries_text t.incrementalWhere) rfl ?_
  refine .optional (carries_flag t.isProtected) rfl ?_
  refine .optional (carries_list fun s _ => takes_string s) rfl ?_
  refine .optional (carries_option (fun o _ => o.takes) fun _ h => Json.noConfusion h) rfl ?_
  exact .nil _

theorem Operation.takes (o : Operation) : Takes Operation.decode o.toJson o := by
  refine takes_decodeAction (a := { o with header := default }) o.header rfl rfl ?_ (by decide)
    (by decide)
  refine .mandatory (takes_list fun s _ => takes_string s) ?_
  refine .optional (carries_flag o.hasOutput) rfl ?_
  exact .nil _

theorem Assertion.takes (a : Assertion) : Takes Assertion.decode a.toJson a := by
  refine takes_decodeAction (a := { a with header := default }) a.header rfl rfl ?_ (by decide)
    (by decide)
  refine .mandatory (takes_string a.query) ?_
  refine .optional (carries_option (fun t _ => t.takes) Target.toJson_ne_null) rfl ?_
  exact .nil _

theorem Declaration.takes (d : Declaration) : Takes Declaration.decode d.toJson d := by
  have hmembers : d.toJson = Json.present (d.header.members ++ []) := by
    rw [List.append_nil]
    rfl
  rw [hmembers]
  exact takes_decodeAction (a := { d with header := default }) d.header rfl rfl (.nil _)
    (by decide) (by decide)

theorem Notebook.takes (n : Notebook) : Takes Notebook.decode n.toJson n := by
  refine takes_decodeAction (a := { n with header := default }) n.header rfl rfl ?_ (by decide)
    (by decide)
  refine .mandatory (takes_string n.contents) ?_
  exact .nil _

/-! ## §3 Tests and problems -/

theorem CompiledTest.takes (t : CompiledTest) : Takes CompiledTest.decode t.toJson t := by
  change Takes _ (Json.present
    [ ("name", some (.str t.name)), ("fileName", some (.str t.fileName)),
      ("testQuery", some (.str t.testQuery)),
      ("expectedOutputQuery", some (.str t.expectedOutputQuery)) ]) t
  refine Fills.takes ?_ (by decide)
  refine .mandatory (takes_string t.name) ?_
  refine .mandatory (takes_string t.fileName) ?_
  refine .optional ((takes_string t.testQuery).carries "") rfl ?_
  refine .optional ((takes_string t.expectedOutputQuery).carries "") rfl ?_
  exact .nil t

theorem FileMessage.takes (title : String) (m : FileMessage) :
    Takes (FileMessage.decode title) m.toJson m := by
  change Takes _ (Json.present
    [("fileName", some (.str m.fileName)), ("message", some (.str m.message))]) m
  refine Fills.takes ?_ (show ["fileName", "message"].Nodup by decide)
  refine .mandatory (takes_string m.fileName) ?_
  refine .mandatory (takes_string m.message) ?_
  exact .nil m

theorem ValidationError.takes (e : ValidationError) :
    Takes ValidationError.decode e.toJson e := by
  refine Fills.takes ?_ (by decide)
  refine .mandatory (takes_string e.fileName) ?_
  refine .mandatory (takes_string e.message) ?_
  refine .optional (carries_option (fun t _ => t.takes) Target.toJson_ne_null) rfl ?_
  exact .nil e

theorem GraphErrors.takes (e : GraphErrors) : Takes GraphErrors.decode e.toJson e := by
  refine Fills.takes ?_ (by decide)
  refine .optional ((takes_list fun m _ => m.takes "struct CompilationError").carries []) rfl ?_
  refine .optional ((takes_list fun v _ => v.takes).carries []) rfl ?_
  refine .optional (carries_list fun m _ => m.takes "struct GraphWarning") rfl ?_
  exact .nil e

/-! ## §4 Room for a graph -/

open Json

theorem Target.bounded_toJson (t : Target) (n : Nat) : t.toJson.Bounded (n + 1) := by
  refine bounded_present fun member hmember => ?_
  simp only [List.mem_cons, List.not_mem_nil, or_false] at hmember
  rcases hmember with rfl | rfl | rfl
  · exact boundedMember_map bounded_str t.database
  · exact (bounded_str t.schema).member
  · exact (bounded_str t.name).member

theorem ProjectConfig.bounded_toJson (c : ProjectConfig) (n : Nat) :
    c.toJson.Bounded (n + 2) := by
  refine bounded_present fun member hmember => ?_
  simp only [List.mem_cons, List.not_mem_nil, or_false] at hmember
  rcases hmember with rfl | rfl | rfl | rfl | rfl | rfl | rfl | rfl | rfl | rfl
  · exact (bounded_str c.warehouse.name).member
  · exact boundedMember_map bounded_str c.defaultDatabase
  · exact (bounded_str c.defaultSchema).member
  · exact boundedMember_map bounded_str c.defaultLocation
  · exact (bounded_str c.assertionSchema).member
  · exact boundedMember_map bounded_str c.databaseSuffix
  · exact boundedMember_map bounded_str c.schemaSuffix
  · exact boundedMember_map bounded_str c.tablePrefix
  · exact forall_mem_unless (bounded_ofDict fun entry _ => bounded_str entry.2)
  · exact boundedMember_map bounded_str c.coreVersion

theorem boundedMember_flagIfSet {n : Nat} (b : Bool) : BoundedMember n (flagIfSet b) := by
  cases b with
  | false => exact fun _ hv => absurd hv (Option.not_mem_none _)
  | true => exact (bounded_bool true).member

namespace ActionHeader

/-- The documentation of no column is deeper than `n` containers. -/
def Within (n : Nat) (h : ActionHeader) : Prop := ∀ d ∈ h.descriptor, d.Within n

/-- The members that hold no documentation. -/
def plainMembers (h : ActionHeader) : List (String × Option Json) :=
  [ ("target", some h.target.toJson),
    ("canonicalTarget", some h.canonicalTarget.toJson),
    ("fileName", some (.str h.fileName)),
    ("dependencyTargets", listUnlessEmpty Target.toJson h.dependencyTargets),
    ("tags", listUnlessEmpty .str h.tags),
    ("disabled", flagIfSet h.disabled) ]

theorem members_eq (h : ActionHeader) :
    h.members =
      h.plainMembers ++ [("actionDescriptor", h.descriptor.map ActionDescriptor.toJson)] :=
  rfl

theorem bounded_plainMembers (h : ActionHeader) (n : Nat) :
    ∀ member ∈ h.plainMembers, BoundedMember (n + 2) member.2 := by
  intro member hmember
  simp only [plainMembers, List.mem_cons, List.not_mem_nil, or_false] at hmember
  rcases hmember with rfl | rfl | rfl | rfl | rfl | rfl
  · exact (h.target.bounded_toJson _).member
  · exact (h.canonicalTarget.bounded_toJson _).member
  · exact (bounded_str h.fileName).member
  · exact forall_mem_unless (bounded_arr_map fun t _ => t.bounded_toJson n)
  · exact forall_mem_unless (bounded_strings h.tags)
  · exact boundedMember_flagIfSet h.disabled

/-- There is room for the value exactly if there is room for the documentation of the action. -/
structure Sizes (h : ActionHeader) (v : Json) : Prop where
  whole : v.Whole
  fits : ∀ n, v.Fits (n + 3) ↔ h.Within n

theorem fits_descriptor_iff (h : ActionHeader) (n : Nat) :
    (∀ v ∈ h.descriptor.map ActionDescriptor.toJson, v.Fits (n + 2)) ↔ h.Within n := by
  cases hd : h.descriptor with
  | none => simp [Within, hd]
  | some d => simp [Within, hd, d.fits_toJson]

/-- Nothing but its documentation makes an action deep. -/
theorem sizes_present (h : ActionHeader) {own : List (String × Option Json)}
    (hown : ∀ n, ∀ member ∈ own, BoundedMember (n + 2) member.2) :
    h.Sizes (present (h.members ++ own)) := by
  constructor
  · refine whole_present ?_
    rw [members_eq, List.forall_mem_append, List.forall_mem_append, List.forall_mem_singleton]
    refine ⟨⟨fun m hm v hv => (h.bounded_plainMembers 0 m hm v hv).whole, fun v hv => ?_⟩,
      fun m hm v hv => (hown 0 m hm v hv).whole⟩
    obtain ⟨d, -, rfl⟩ := Option.map_eq_some_iff.1 hv
    exact d.whole_toJson
  · intro n
    rw [fits_present, members_eq, List.forall_mem_append, List.forall_mem_append,
      List.forall_mem_singleton, h.fits_descriptor_iff]
    constructor
    · exact fun hall => hall.1.2
    · exact fun hwithin => ⟨⟨fun m hm v hv => (h.bounded_plainMembers n m hm v hv).fits, hwithin⟩,
        fun m hm v hv => (hown n m hm v hv).fits⟩

end ActionHeader

theorem Table.sizes (t : Table) : t.header.Sizes t.toJson := by
  refine t.header.sizes_present fun n member hmember => ?_
  simp only [List.mem_cons, List.not_mem_nil, or_false] at hmember
  rcases hmember with rfl | rfl | rfl | rfl | rfl | rfl | rfl | rfl | rfl
  · exact (bounded_str t.type.name).member
  · exact (bounded_str t.query).member
  · exact boundedMember_map bounded_str t.incrementalQuery
  · exact forall_mem_unless (bounded_strings t.preOps)
  · exact forall_mem_unless (bounded_strings t.postOps)
  · exact boundedMember_map bounded_str t.incrementalWhere
  · exact boundedMember_flagIfSet t.isProtected
  · exact forall_mem_unless (bounded_strings t.uniqueKey)
  · exact boundedMember_map (fun o => o.bounded_toJson n) t.bigquery

theorem Operation.sizes (o : Operation) : o.header.Sizes o.toJson := by
  refine o.header.sizes_present fun n member hmember => ?_
  simp only [List.mem_cons, List.not_mem_nil, or_false] at hmember
  rcases hmember with rfl | rfl
  · exact (bounded_strings o.queries).member
  · exact boundedMember_flagIfSet o.hasOutput

theorem Assertion.sizes (a : Assertion) : a.header.Sizes a.toJson := by
  refine a.header.sizes_present fun n member hmember => ?_
  simp only [List.mem_cons, List.not_mem_nil, or_false] at hmember
  rcases hmember with rfl | rfl
  · exact (bounded_str a.query).member
  · exact boundedMember_map (fun t => t.bounded_toJson _) a.parentAction

theorem Declaration.sizes (d : Declaration) : d.header.Sizes d.toJson := by
  have hsizes := d.header.sizes_present fun _ => List.forall_mem_nil _
  rwa [List.append_nil] at hsizes

theorem Notebook.sizes (n : Notebook) : n.header.Sizes n.toJson := by
  refine n.header.sizes_present fun _ => List.forall_mem_singleton.2 ?_
  exact (bounded_str n.contents).member

theorem FileMessage.bounded_toJson (m : FileMessage) (n : Nat) : m.toJson.Bounded (n + 1) := by
  refine bounded_obj fun member hmember => ?_
  simp only [List.mem_cons, List.not_mem_nil, or_false] at hmember
  rcases hmember with rfl | rfl
  · exact bounded_str m.fileName
  · exact bounded_str m.message

theorem ValidationError.bounded_toJson (e : ValidationError) (n : Nat) :
    e.toJson.Bounded (n + 2) := by
  refine bounded_present fun member hmember => ?_
  simp only [List.mem_cons, List.not_mem_nil, or_false] at hmember
  rcases hmember with rfl | rfl | rfl
  · exact (bounded_str e.fileName).member
  · exact (bounded_str e.message).member
  · exact boundedMember_map (fun t => t.bounded_toJson n) e.actionTarget

theorem GraphErrors.bounded_toJson (e : GraphErrors) (n : Nat) : e.toJson.Bounded (n + 4) := by
  refine bounded_present fun member hmember => ?_
  simp only [List.mem_cons, List.not_mem_nil, or_false] at hmember
  rcases hmember with rfl | rfl | rfl
  · exact (bounded_arr_map fun m _ => m.bounded_toJson _).member
  · exact (bounded_arr_map fun v _ => v.bounded_toJson _).member
  · exact forall_mem_unless (bounded_arr_map fun m _ => m.bounded_toJson _)

theorem CompiledTest.bounded_toJson (t : CompiledTest) (n : Nat) : t.toJson.Bounded (n + 1) := by
  refine bounded_obj fun member hmember => ?_
  simp only [List.mem_cons, List.not_mem_nil, or_false] at hmember
  rcases hmember with rfl | rfl | rfl | rfl
  · exact bounded_str t.name
  · exact bounded_str t.fileName
  · exact bounded_str t.testQuery
  · exact bounded_str t.expectedOutputQuery

/-! ## §5 What cannot be read -/

section Refusal

variable {α : Type} {source : Source} {n : Nat}

/-- The documentation of an action is set aside until all other members have been read, so an action
that is read has none that is too deep. -/
theorem within_of_decodeAction_eq_ok {shape : Shape α} {start a : α}
    {put : ActionHeader → α → α} {header : ActionHeader} {own : List (String × Option Json)}
    (hopen : shape.closed = false) (hapart : ∀ f ∈ shape.fields, "actionDescriptor" ∉ f.spellings)
    (h : decodeAction shape start put source
      ((Json.present (header.members ++ own)).toDoc.limited (n + 3)) = .ok a) :
    header.Within n := by
  rw [← header.fits_descriptor_iff]
  intro v hv
  have hwritten : ("actionDescriptor", some v) ∈ header.members ++ own := by
    rw [header.members_eq, ← Option.mem_def.1 hv]
    exact List.mem_append_left _ (List.mem_append_right _ (List.mem_singleton_self _))
  obtain ⟨members, hobj, hmember⟩ := exists_present_eq hwritten
  rw [hobj, limited_obj] at h
  obtain ⟨read, hread, -⟩ := exists_of_bind_eq_ok h
  obtain ⟨doc, hdoc⟩ := Shape.exists_setAside_of_ofEntries_eq_ok hread hopen rfl hapart
    (List.mem_map_of_mem hmember)
  exact fits_of_setAside v hdoc

/-- So a list of actions that is read has none. -/
theorem within_of_list_eq_ok {decode : Decoder α} {encode : α → Json} {header : α → ActionHeader}
    (hwithin : ∀ a b : α, decode source ((encode a).toDoc.limited (n + 3)) = .ok b →
      (header a).Within n) {items read : List α}
    (h : list decode source ((Json.arr (items.map encode)).toDoc.limited (n + 4)) = .ok read) :
    ∀ h ∈ items.map header, h.Within n := by
  rw [limited_arr] at h
  rw [List.forall_mem_map]
  intro a ha
  obtain ⟨b, hb⟩ := exists_of_list_eq_ok h _ (List.mem_map_of_mem (List.mem_map_of_mem ha))
  exact hwithin a b hb

theorem Table.within_of_decode_eq_ok (t read : Table)
    (h : Table.decode source (t.toJson.toDoc.limited (n + 3)) = .ok read) : t.header.Within n := by
  unfold Table.decode Table.toJson at h
  exact within_of_decodeAction_eq_ok rfl (by decide) h

theorem Operation.within_of_decode_eq_ok (o read : Operation)
    (h : Operation.decode source (o.toJson.toDoc.limited (n + 3)) = .ok read) :
    o.header.Within n :=
  within_of_decodeAction_eq_ok rfl (by decide) h

theorem Assertion.within_of_decode_eq_ok (a read : Assertion)
    (h : Assertion.decode source (a.toJson.toDoc.limited (n + 3)) = .ok read) :
    a.header.Within n :=
  within_of_decodeAction_eq_ok rfl (by decide) h

theorem Declaration.within_of_decode_eq_ok (d read : Declaration)
    (h : Declaration.decode source (d.toJson.toDoc.limited (n + 3)) = .ok read) :
    d.header.Within n := by
  have hmembers : d.toJson = Json.present (d.header.members ++ []) := by
    rw [List.append_nil]
    rfl
  rw [hmembers] at h
  exact within_of_decodeAction_eq_ok rfl (by decide) h

theorem Notebook.within_of_decode_eq_ok (b read : Notebook)
    (h : Notebook.decode source (b.toJson.toDoc.limited (n + 3)) = .ok read) :
    b.header.Within n :=
  within_of_decodeAction_eq_ok rfl (by decide) h

end Refusal

/-! ## §6 Graphs -/

namespace CompiledGraph

theorem takes (g : CompiledGraph) : Takes decode g.toJson g := by
  change Takes _ (Json.present
    [ ("dataformCoreVersion", some (.str g.coreVersion)),
      ("projectConfig", some g.projectConfig.toJson),
      ("tables", some (.arr (g.tables.map Table.toJson))),
      ("operations", some (.arr (g.operations.map Operation.toJson))),
      ("assertions", some (.arr (g.assertions.map Assertion.toJson))),
      ("declarations", some (.arr (g.declarations.map Declaration.toJson))),
      ("notebooks", some (.arr (g.notebooks.map Notebook.toJson))),
      ("tests", some (.arr (g.tests.map CompiledTest.toJson))),
      ("graphErrors", some g.graphErrors.toJson) ]) g
  refine Fills.takes
    (?_ : Fills shape.fields _ { coreVersion := "", projectConfig := {} } g) (by decide)
  refine .mandatory (takes_string g.coreVersion) ?_
  refine .mandatory g.projectConfig.takes ?_
  refine .optional ((takes_list fun t _ => t.takes).carries []) rfl ?_
  refine .optional ((takes_list fun o _ => o.takes).carries []) rfl ?_
  refine .optional ((takes_list fun a _ => a.takes).carries []) rfl ?_
  refine .optional ((takes_list fun d _ => d.takes).carries []) rfl ?_
  refine .optional ((takes_list fun n _ => n.takes).carries []) rfl ?_
  refine .optional ((takes_list fun t _ => t.takes).carries []) rfl ?_
  refine .mandatory g.graphErrors.takes ?_
  exact .nil g

/-- The documentation of no column is deeper than `n` containers. -/
def Within (n : Nat) (g : CompiledGraph) : Prop := ∀ h ∈ g.headers, h.Within n

theorem fits_actions {α : Type} {encode : α → Json} {header : α → ActionHeader}
    (hsizes : ∀ a, (header a).Sizes (encode a)) (items : List α) (n : Nat) :
    (Json.arr (items.map encode)).Fits (n + 4) ↔ ∀ h ∈ items.map header, h.Within n := by
  rw [fits_arr_map, List.forall_mem_map]
  exact forall₂_congr fun a _ => (hsizes a).fits n

/-- Five containers stand around the documentation of a column. -/
theorem fits_toJson (g : CompiledGraph) (n : Nat) : g.toJson.Fits (n + 5) ↔ g.Within n := by
  -- Settings, tests and problems take four levels at most; the rest is up to the actions.
  have hconfig := (g.projectConfig.bounded_toJson (n + 2)).fits
  have htests : (Json.arr (g.tests.map CompiledTest.toJson)).Fits (n + 4) :=
    (bounded_arr_map fun t _ => t.bounded_toJson (n + 2)).fits
  have herrors := (g.graphErrors.bounded_toJson n).fits
  rw [Within, headers, List.forall_mem_append, List.forall_mem_append, List.forall_mem_append,
    List.forall_mem_append, ← fits_actions Table.sizes, ← fits_actions Operation.sizes,
    ← fits_actions Assertion.sizes, ← fits_actions Declaration.sizes,
    ← fits_actions Notebook.sizes]
  constructor
  · rintro ⟨-, -, -, htables, hoperations, hassertions, hdeclarations, hnotebooks, -⟩
    exact ⟨⟨⟨⟨htables, hoperations⟩, hassertions⟩, hdeclarations⟩, hnotebooks⟩
  · rintro ⟨⟨⟨⟨htables, hoperations⟩, hassertions⟩, hdeclarations⟩, hnotebooks⟩
    exact ⟨Nat.succ_pos _, trivial, hconfig, htables, hoperations, hassertions, hdeclarations,
      hnotebooks, htests, herrors, trivial⟩

theorem whole_toJson (g : CompiledGraph) : g.toJson.Whole := by
  refine allMembersWhole_of_forall fun member hmember => ?_
  simp only [List.mem_cons, List.not_mem_nil, or_false] at hmember
  rcases hmember with rfl | rfl | rfl | rfl | rfl | rfl | rfl | rfl | rfl
  · exact (bounded_str (n := 0) g.coreVersion).whole
  · exact (g.projectConfig.bounded_toJson 0).whole
  · exact whole_arr_map fun t _ => t.sizes.whole
  · exact whole_arr_map fun o _ => o.sizes.whole
  · exact whole_arr_map fun a _ => a.sizes.whole
  · exact whole_arr_map fun d _ => d.sizes.whole
  · exact whole_arr_map fun n _ => n.sizes.whole
  · exact whole_arr_map fun t _ => (t.bounded_toJson 0).whole
  · exact (g.graphErrors.bounded_toJson 0).whole

/-- The documentation of every column leaves the reader below its limit, although five containers
stand around it. -/
def Readable (g : CompiledGraph) : Prop := g.Within (Json.depthLimit - 6)

theorem fits_iff_readable (g : CompiledGraph) : g.toJson.Fits 127 ↔ g.Readable :=
  g.fits_toJson 122

/-- No action is too deep in a list that is the value of a field of a graph that is read. -/
theorem within_of_field {α : Type} {source : Source} {n : Nat} {read : CompiledGraph}
    {members : List (String × Json)} {decodeItem : Decoder α} {encode : α → Json}
    {header : α → ActionHeader} {name : String} {put : List α → CompiledGraph → CompiledGraph}
    (h : decode source ((Json.obj members).toDoc.limited (n + 5)) = .ok read) (i : Nat)
    (items : List α)
    (hwithin : ∀ a b, decodeItem source ((encode a).toDoc.limited (n + 3)) = .ok b →
      (header a).Within n)
    (hmember : members[i]? = some (name, .arr (items.map encode)))
    (hfield : shape.fields[i]? = some (field name (list decodeItem) put)) :
    ∀ h ∈ items.map header, h.Within n := by
  rw [limited_obj] at h
  obtain ⟨before, after, hread⟩ := Shape.exists_read_of_decode_eq_ok (by decide) (by decide) h
    (List.mem_of_getElem? hfield) (List.mem_map_of_mem (List.mem_of_getElem? hmember))
  obtain ⟨values, hvalues, -⟩ := exists_of_map_eq_ok hread
  exact within_of_list_eq_ok hwithin hvalues

/-- What is too deep in one of its actions keeps a graph from being read. -/
theorem within_of_decode_eq_ok {source : Source} {n : Nat} {g read : CompiledGraph}
    (h : decode source (g.toJson.toDoc.limited (n + 5)) = .ok read) : g.Within n := by
  -- The members of the object stand in the order of the fields.
  have htables := within_of_field h 2 g.tables Table.within_of_decode_eq_ok rfl rfl
  have hoperations := within_of_field h 3 g.operations Operation.within_of_decode_eq_ok rfl rfl
  have hassertions := within_of_field h 4 g.assertions Assertion.within_of_decode_eq_ok rfl rfl
  have hdeclarations :=
    within_of_field h 5 g.declarations Declaration.within_of_decode_eq_ok rfl rfl
  have hnotebooks := within_of_field h 6 g.notebooks Notebook.within_of_decode_eq_ok rfl rfl
  rw [Within, headers, List.forall_mem_append, List.forall_mem_append, List.forall_mem_append,
    List.forall_mem_append]
  exact ⟨⟨⟨⟨htables, hoperations⟩, hassertions⟩, hdeclarations⟩, hnotebooks⟩

/-- What reading a text of a graph leads to. -/
theorem ofText_of_read_eq {g : CompiledGraph} {text : String}
    (h : Json.read text = ⟨g.toJson.toDoc.limited 127, true⟩) :
    (ofText text = .ok g ↔ g.Readable) ∧ ((∃ e, ofText text = .error e) ↔ ¬ g.Readable) := by
  by_cases hreadable : g.Readable
  · have hok : ofText text = .ok g := by
      rw [ofText, Decode.whole, h, limited_toDoc _ (g.fits_iff_readable.2 hreadable),
        g.takes .jsonText]
      rfl
    simp [hok, hreadable]
  · have herror : ∃ e, ofText text = .error e := by
      -- A graph that was read would be one that can be.
      rw [ofText, Decode.whole, h]
      cases hdecode : decode .jsonText (g.toJson.toDoc.limited 127) with
      | error e => exact ⟨e, rfl⟩
      | ok read => exact absurd (within_of_decode_eq_ok hdecode) hreadable
    obtain ⟨e, he⟩ := herror
    simp [he, hreadable]

/-- Both texts of a graph are read back as the graph exactly if the documentation of its columns is
not too deep, and are refused otherwise; graphs with the same compact text are equal in any case. -/
theorem ofText_iff_readable (g : CompiledGraph) :
    (∀ text ∈ [g.encode, g.encodePretty],
      (ofText text = .ok g ↔ g.Readable) ∧ ((∃ e, ofText text = .error e) ↔ ¬ g.Readable)) ∧
      ∀ g' : CompiledGraph, g.encode = g'.encode ↔ g = g' := by
  constructor
  · rw [List.forall_mem_cons, List.forall_mem_singleton]
    exact ⟨ofText_of_read_eq (Json.read_compact g.whole_toJson.numbers),
      ofText_of_read_eq (Json.read_pretty g.whole_toJson.numbers)⟩
  · refine fun g' => ⟨fun h => ?_, fun h => h ▸ rfl⟩
    have hdoc := Json.toDoc_eq_of_compact_eq g.whole_toJson g'.whole_toJson h
    have hread := g.takes .jsonText
    rw [hdoc, g'.takes .jsonText] at hread
    exact (Except.ok.inj hread).symm

/-- A graph with one declaration, which documents a column that is a record in a record, and so on
to the given level. -/
def deeplyDocumented (levels : Nat) : CompiledGraph where
  coreVersion := "1"
  projectConfig := {}
  declarations :=
    [ { header :=
          { target := ⟨none, "s", "n"⟩
            canonicalTarget := ⟨none, "s", "n"⟩
            fileName := "f"
            descriptor := some { columns := Dict.ofList [("c", ColumnDoc.nested levels)] } } } ]

/-- The text of 62 records inside one another is refused. -/
theorem ofText_deeplyDocumented_ne :
    ofText (deeplyDocumented 62).encode ≠ .ok (deeplyDocumented 62) := by
  intro hread
  have hreadable : (deeplyDocumented 62).Readable :=
    (ofText_of_read_eq (Json.read_compact (whole_toJson _).numbers)).1.1 hread
  have hdepth : (ColumnDoc.nested 62).depth ≤ 122 :=
    hreadable _ (List.mem_singleton_self _) _ rfl ("c", ColumnDoc.nested 62)
      (List.mem_singleton_self _)
  rw [ColumnDoc.depth_nested] at hdepth
  omega

end CompiledGraph

end SqlWorkflow
