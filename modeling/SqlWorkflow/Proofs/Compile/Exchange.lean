import SqlWorkflow.Compile.Basic
import SqlWorkflow.Compile.Host
import SqlWorkflow.Proofs.Graph.RoundTrip

/-!
# What a host learns from a worker

A host sends a request as text, and the worker answers with the text of a response, which may hold
the text of a graph.  Nothing gets lost on the way but graphs that are too deep for the reader of
JSON text (`CompileRequest.exchange`).

- **§1** Texts of values that are read back.
- **§2** Requests are read back.
- **§3** Errors say what they are about in texts, and so they and all responses are read back.
- **§4** The exchange as a whole.
-/

namespace SqlWorkflow

open Decode Json

/-! ## §1 Texts -/

/-- A value that is not too deep is read back from its text. -/
theorem Decode.whole_read_compact {α : Type} {decode : Decoder α} {v : Json} {a : α}
    (htakes : Takes decode v a) (hbounded : v.Bounded 127) :
    whole decode .jsonText (Json.read v.compact) = .ok a := by
  rw [whole, Json.read_compact hbounded.whole.numbers, limited_toDoc v hbounded.fits,
    htakes .jsonText]
  rfl

/-- The entries of a dictionary that is made of a list are among those of the list. -/
theorem Dict.mem_of_mem_ofList {α : Type} {items : List (String × α)} {entry : String × α}
    (h : entry ∈ (ofList items).entries) : entry ∈ items :=
  (mem_of_mem_foldl_insertEntry h).resolve_left List.not_mem_nil

/-! ## §2 Requests -/

namespace CompileRequest

theorem lookupEntry_mode (mode : EntryPointMode) :
    lookupEntry mode.name (EntryPointMode.all.map fun mode => (mode.name, mode)) = some mode := by
  cases mode <;> decide

theorem lookupEntry_policy (policy : UnsupportedPolicy) :
    lookupEntry policy.name (UnsupportedPolicy.all.map fun p => (p.name, p)) = some policy := by
  cases policy <;> decide

/-- The fuel is given as a number of 64 bits. -/
def Storable (r : CompileRequest) : Prop := ∀ fuel ∈ r.fuel, fuel < Nat.pow 2 64

theorem takes (r : CompileRequest) (h : r.Storable) : Takes decode r.toJson r := by
  refine Fills.takes (?_ : Fills shape.fields _ { projectFolder := "" } r) (by decide)
  refine .mandatory (takes_string r.projectFolder) ?_
  refine .optional (carries_text r.schemaSuffix) rfl ?_
  refine .optional (carries_option (fun texts _ => takes_list fun s _ => takes_string s)
    fun _ h => Json.noConfusion h) rfl ?_
  refine .optional ((takes_bool r.forceLegacy).carries false) rfl ?_
  refine .optional (carries_text r.returnOverride) rfl ?_
  refine .optional (carries_dict fun entry _ => takes_string entry.2) rfl ?_
  refine .optional ((takes_oneOf (lookupEntry_mode r.mode)).carries .fallbackToLegacy) rfl ?_
  refine .optional ((takes_oneOf (lookupEntry_policy r.policy)).carries .warn) rfl ?_
  refine .optional (carries_option (fun fuel hfuel => takes_natural (h fuel hfuel))
    fun _ h => Json.noConfusion h) rfl ?_
  exact .nil r

theorem bounded_toJson (r : CompileRequest) (h : r.Storable) (n : Nat) :
    r.toJson.Bounded (n + 2) := by
  refine bounded_present ?_
  simp only [List.forall_mem_cons]
  refine ⟨(bounded_str _).member, boundedMember_map bounded_str _,
    boundedMember_map bounded_strings _, (bounded_bool _).member, boundedMember_map bounded_str _,
    forall_mem_unless (bounded_ofDict fun _ _ => bounded_str _), (bounded_str _).member,
    (bounded_str _).member, fun v hv => ?_, fun _ h => absurd h List.not_mem_nil⟩
  obtain ⟨fuel, hfuel, rfl⟩ := Option.map_eq_some_iff.1 hv
  exact bounded_nat (h fuel hfuel)

/-- A request is read back from the text by which it is passed on. -/
theorem ofText_encode (r : CompileRequest) (h : r.Storable) : ofText r.encode = .ok r :=
  whole_read_compact (r.takes h) (r.bounded_toJson h 125)

end CompileRequest

/-! ## §3 Responses -/

namespace FatalError

/-- The error says what it is about in texts. -/
def Plain (e : FatalError) : Prop := ∀ entry ∈ e.properties.entries, ∃ s, entry.2 = .str s

variable {e : FatalError}

theorem takes (h : e.Plain) : Takes decode e.toJson e := by
  have hproperty : ∀ entry ∈ e.properties.entries, Takes anyJson (id entry.2) entry.2 := by
    intro entry hentry
    obtain ⟨s, hs⟩ := h entry hentry
    rw [hs]
    exact fun _ => rfl
  refine Fills.takes (?_ : Fills shape.fields _ { message := "" } e) (by decide)
  refine .mandatory (takes_string e.message) ?_
  refine .optional ((takes_string e.stack).carries "") rfl ?_
  refine .optional ((takes_string e.name).carries "") rfl ?_
  refine .optional (carries_dict hproperty) rfl ?_
  exact .nil e

theorem bounded_toJson (h : e.Plain) (n : Nat) : e.toJson.Bounded (n + 2) := by
  have hproperty : ∀ entry ∈ e.properties.entries, (id entry.2).Bounded n := by
    intro entry hentry
    obtain ⟨s, hs⟩ := h entry hentry
    rw [hs]
    exact bounded_str s
  refine bounded_present ?_
  simp only [List.forall_mem_cons]
  exact ⟨(bounded_str _).member, (bounded_str _).member, (bounded_str _).member,
    forall_mem_unless (bounded_ofDict hproperty), fun _ h => absurd h List.not_mem_nil⟩

end FatalError

/-- Every error because of which a compile fails says what it is about in texts. -/
theorem CompileError.plain_toFatal (e : CompileError) : e.toFatal.Plain := by
  have hofList {items : List (String × Json)} (h : ∀ entry ∈ items, ∃ s, entry.2 = .str s) :
      ∀ entry ∈ (Dict.ofList items).entries, ∃ s, entry.2 = .str s :=
    fun entry hentry => h entry (Dict.mem_of_mem_ofList hentry)
  change ∀ entry ∈ e.properties.entries, ∃ s, entry.2 = .str s
  -- Four kinds of errors have properties, and list them one by one.
  unfold CompileError.properties
  split
  · exact hofList (by simp)
  · exact hofList (by simp)
  · exact hofList (by simp)
  · exact hofList (by simp)
  · exact fun _ h => absurd h List.not_mem_nil

namespace CompileResponse

/-- The response holds the text of a graph, or an error that says what it is about in texts. -/
def Plain : CompileResponse → Prop
  | .success _ => True
  | .failure e => e.Plain

theorem takes : ∀ {response : CompileResponse}, response.Plain →
    Takes decode response.toJson response
  | .success text, _ => by
    refine takes_tagged (fun source doc => (successShape.decode "" source doc).map success)
      rfl (by simp) fun source => ?_
    have hfields : Takes (successShape.decode "")
        (Json.present [("encodedGraph", some (.str text))]) text :=
      Fills.takes (.mandatory (takes_string text) (.nil text)) (by decide)
    exact congrArg (Except.map success) (hfields source)
  | .failure e, h => by
    refine takes_tagged
      (fun source doc => (failureShape.decode { message := "" } source doc).map failure)
      rfl (by simp) fun source => ?_
    have hfields : Takes (failureShape.decode { message := "" })
        (Json.present [("error", some e.toJson)]) e :=
      Fills.takes (.mandatory (FatalError.takes h) (.nil e)) (by decide)
    exact congrArg (Except.map failure) (hfields source)

theorem bounded_toJson : ∀ {response : CompileResponse}, response.Plain → ∀ n,
    response.toJson.Bounded (n + 3)
  | .success _, _, _ => bounded_obj (by
    simp only [List.forall_mem_cons]
    exact ⟨bounded_str _, bounded_str _, fun _ h => absurd h List.not_mem_nil⟩)
  | .failure _, h, n => bounded_obj (by
    simp only [List.forall_mem_cons]
    exact ⟨bounded_str _, FatalError.bounded_toJson h n, fun _ h => absurd h List.not_mem_nil⟩)

/-- A response is read back from the text by which it is passed on. -/
theorem ofText_encode {response : CompileResponse} (h : response.Plain) :
    ofText response.encode = .ok response :=
  whole_read_compact (takes h) (bounded_toJson h 124)

/-- The text of an answer, which names its type. -/
example : encode (.failure { message := "no", name := "CoreError" }) =
    "\x7b\"type\":\"error\",\"error\":" ++
      "\x7b\"message\":\"no\",\"stack\":\"\",\"name\":\"CoreError\"\x7d\x7d" := by
  decide +kernel

end CompileResponse

/-! ## §4 The exchange -/

theorem CompileResponse.plain_ofRequest (disk : Disk) (r : CompileRequest) :
    (ofRequest disk r).Plain := by
  unfold ofRequest
  split
  · trivial
  · exact CompileError.plain_toFatal _

/-- A worker that answers the text of a request, whatever its exit status is. -/
def WorkerRun.answering (status : Nat) (disk : Disk) (text : String) : WorkerRun :=
  .exited status (CompileResponse.ofRequestText disk text).encode

/-- The host learns what the worker answers. -/
theorem WorkerRun.encodedGraph_answering (status : Nat) (disk : Disk) {r : CompileRequest}
    (h : r.Storable) : (answering status disk r.encode).encodedGraph =
      match r.compile disk with
      | .ok g => .ok (r.returnOverride.getD g.encode)
      | .error e => .error (.fatal e.toFatal) := by
  have hread := CompileResponse.ofText_encode (CompileResponse.plain_ofRequest disk r)
  -- The host looks at the exit status only if it cannot read the answer.
  unfold answering encodedGraph CompileResponse.ofRequestText
  simp only [r.ofText_encode h, hread]
  unfold CompileResponse.ofRequest
  cases r.compile disk with
  | ok g => rfl
  | error e => rfl

/-- The host reads a graph that is not too deep, and is refused a graph that is. -/
theorem WorkerRun.graph_of_encodedGraph {run : WorkerRun} {g : CompiledGraph}
    (h : run.encodedGraph = .ok g.encode) :
    (run.graph = .ok g ↔ g.Readable) ∧ ((∃ e, run.graph = .error (.graph e)) ↔ ¬g.Readable) := by
  have hread := CompiledGraph.ofText_of_read_eq (Json.read_compact g.whole_toJson.numbers)
  change (CompiledGraph.ofText g.encode = .ok g ↔ g.Readable) ∧
    ((∃ e, CompiledGraph.ofText g.encode = .error e) ↔ ¬g.Readable) at hread
  have hgraph : run.graph = (CompiledGraph.ofText g.encode).mapError .graph := by
    rw [graph, h]
    rfl
  -- What the reader says is passed on, as an error of the host if it is one.
  rw [hgraph]
  cases hfound : CompiledGraph.ofText g.encode with
  | ok found => simpa [hfound, Except.mapError] using hread
  | error e => simpa [hfound, Except.mapError] using hread

/-- The worker reads the request that the host sent.  The host then learns the error of the compile,
or what is answered instead of the graph, or else the graph; only that may be too deep to be
read. -/
theorem CompileRequest.exchange (r : CompileRequest) (h : r.Storable) (disk : Disk) (status : Nat) :
    let run := WorkerRun.answering status disk r.encode
    ofText r.encode = .ok r ∧
      (∀ e, r.compile disk = .error e →
        run.encodedGraph = .error (.fatal e.toFatal) ∧ run.graph = .error (.fatal e.toFatal)) ∧
      ∀ g, r.compile disk = .ok g →
        (∀ s, r.returnOverride = some s → run.encodedGraph = .ok s) ∧
        (r.returnOverride = none → run.encodedGraph = .ok g.encode ∧
          (run.graph = .ok g ↔ g.Readable) ∧
          ((∃ e, run.graph = .error (.graph e)) ↔ ¬g.Readable)) := by
  intro run
  have hrun := WorkerRun.encodedGraph_answering status disk h
  change run.encodedGraph = _ at hrun
  refine ⟨r.ofText_encode h, fun e he => ?_, fun g hg => ⟨fun s hs => ?_, fun hnone => ?_⟩⟩
  · rw [he] at hrun
    refine ⟨hrun, ?_⟩
    rw [WorkerRun.graph, hrun]
    rfl
  · rw [hg, hs] at hrun
    exact hrun
  · rw [hg, hnone] at hrun
    exact ⟨hrun, WorkerRun.graph_of_encodedGraph hrun⟩

/-- A script documents a column that is a record.  The host reads the graph with its column. -/
theorem CompileRequest.exchange_documented :
    let r : CompileRequest := { projectFolder := "/", fuel := some 1000 }
    let column := "\x7b'description':'d','columns':\x7b'k':'e'\x7d\x7d"
    let script := "\x7b\x7bpublish(\x7b'name':'t','columns':\x7b'c':" ++ column ++
      "\x7d\x7d,'SELECT 1')\x7d\x7d"
    let settings := FileTree.file (.text "dataformCoreVersion: 0.1.2\n")
    let definitions := FileTree.folder [("t.jinja", .file (.text script))]
    let disk : Disk :=
      { root := .folder [("definitions", definitions), ("workflow_settings.yaml", settings)] }
    ∃ g, r.Storable ∧ r.compile disk = .ok g ∧
      (∃ header ∈ g.headers, ∃ d ∈ header.descriptor, ∃ column ∈ d.columns.entries,
        0 < column.2.depth) ∧
      g.Readable ∧ (WorkerRun.answering 0 disk r.encode).graph = .ok g := by
  intro r column script settings definitions disk
  let depths (header : ActionHeader) : Option (List Nat) :=
    header.descriptor.map fun d => d.columns.entries.map fun column => column.2.depth
  have h : (do
      let g ← (r.compile disk).toOption
      return g.headers.map depths) = some [some [2]] := by decide +kernel
  obtain ⟨g, hg, hdepths⟩ := exists_of_toOption_bind_eq_some h
  replace hdepths : g.headers.map depths = [some [2]] := Option.some.inj hdepths
  have hstorable : r.Storable := by
    rintro _ ⟨⟩
    decide
  have hdocumented : ∃ header ∈ g.headers, ∃ d ∈ header.descriptor, ∃ column ∈ d.columns.entries,
      0 < column.2.depth := by
    obtain ⟨header, hheader, hcolumns⟩ :=
      List.mem_map.1 (hdepths ▸ List.mem_singleton_self (some [2]))
    obtain ⟨d, hd, hcolumns⟩ := Option.map_eq_some_iff.1 hcolumns
    obtain ⟨column, hcolumn, hdepth⟩ := List.mem_map.1 (hcolumns ▸ List.mem_singleton_self 2)
    exact ⟨header, hheader, d, hd, column, hcolumn, hdepth ▸ Nat.two_pos⟩
  have hreadable : g.Readable := by
    intro header hheader d hd column hcolumn
    have hcolumns : depths header = some [2] :=
      List.mem_singleton.1 (hdepths ▸ List.mem_map_of_mem hheader)
    obtain ⟨d', hd', hcolumns⟩ := Option.map_eq_some_iff.1 hcolumns
    obtain rfl : d' = d := Option.some.inj (hd'.symm.trans hd)
    have hdepth : column.2.depth = 2 :=
      List.mem_singleton.1 (hcolumns ▸ List.mem_map_of_mem hcolumn)
    rw [hdepth]
    decide
  exact ⟨g, hstorable, hg, hdocumented, hreadable,
    (((r.exchange hstorable disk 0).2.2 g hg).2 rfl).2.1.2 hreadable⟩

/-- A script documents a column with 62 records inside one another.  There is a graph, but the host
is refused it. -/
theorem CompileRequest.exists_graph_ne :
    let r : CompileRequest := { projectFolder := "/" }
    let script := "\x7b%set n=namespace(c='x')%\x7d\x7b%for i in range(62)%\x7d" ++
      "\x7b%set n.c=\x7b'columns':\x7b'c':n.c\x7d\x7d%\x7d\x7b%endfor%\x7d" ++
      "\x7b\x7bpublish(\x7b'name':'t','columns':\x7b'c':n.c\x7d\x7d,'SELECT 1')\x7d\x7d"
    let settings := FileTree.file (.text "dataformCoreVersion: 0.1.2\n")
    let definitions := FileTree.folder [("t.jinja", .file (.text script))]
    let disk : Disk :=
      { root := .folder [("definitions", definitions), ("workflow_settings.yaml", settings)] }
    ∃ g, r.compile disk = .ok g ∧ (WorkerRun.answering 0 disk r.encode).graph ≠ .ok g := by
  intro r script settings definitions disk
  have h : (do
      let g ← (r.compile disk).toOption
      return g.headers.any fun header => header.descriptor.any fun d =>
        d.columns.entries.any fun column => 122 < column.2.depth) = some true := by
    decide +kernel
  obtain ⟨g, hg, hdeep⟩ := exists_of_toOption_bind_eq_some h
  refine ⟨g, hg, fun hgraph => ?_⟩
  have hrun := WorkerRun.encodedGraph_answering 0 disk (r := r) fun _ h => nomatch h
  rw [hg] at hrun
  have hreadable := (WorkerRun.graph_of_encodedGraph hrun).1.1 hgraph
  -- One of the columns is deeper than those of a graph that is read.
  obtain ⟨header, hheader, hdeep⟩ := List.any_eq_true.1 (Option.some.inj hdeep)
  obtain ⟨d, hd, hdeep⟩ := (Option.any_eq_true _ _).1 hdeep
  obtain ⟨column, hcolumn, hdeep⟩ := List.any_eq_true.1 hdeep
  have hdepth := hreadable header hheader d hd column hcolumn
  exact absurd hdepth (Nat.not_le.2 (of_decide_eq_true hdeep))

end SqlWorkflow
