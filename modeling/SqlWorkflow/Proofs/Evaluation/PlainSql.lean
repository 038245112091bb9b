import SqlWorkflow.Proofs.Action.Changes
import SqlWorkflow.Proofs.Evaluation.Literals

/-!
# Files of plain SQL

A file without code is registered with its text as it stands (`evaluate_of_isPlain`), whatever
characters that is made of.  Only its length counts: every statement takes some fuel, so a file of
very many statements fails (`evaluate_manyStatements`).

- **§1** Actions without code.
- **§2** The drafts that they are made of.
- **§3** Files without code.
- **§4** Files of many statements.
-/

namespace SqlWorkflow.Evaluation

open Template

/-! ## §1 Programs -/

namespace Evaluator

variable {e : Evaluator} {program : Sql.ActionProgram}

/-- An action without code whose fuel is enough. -/
theorem runAction_of_literals (himports : e.imports = []) (hcode : program.codeBlocks = [])
    (hliterals : HoldsLiterals program.parts) (hwords : program.literals.length ≤ Nat.pow 2 63)
    (hfuel : ∀ fuel ∈ e.options.fuel, templateSteps program.parts ≤ fuel) {kind : ActionKind}
    {draft : Draft} (hdraft : startDraft program kind = .ok draft)
    (htype : draft.tableType ≠ .incremental) {registration : Registration}
    (hfinish : (Draft.apply (do
      giveParts draft.kind (program.parts.map captured)
      Draft.finish) draft).1 = .ok registration) :
    e.runAction program kind = .ok { registrations := [registration] } := by
  have hrun := runTemplate_of_le himports hcode hliterals hwords hfuel { contexts := #[{ draft }] }
  -- Nothing is run twice for what is not incremental.
  have hincremental : e.withIncrementalQuery program draft = .ok draft := by
    rw [withIncrementalQuery, if_neg fun h => htype h.2]
    rfl
  rw [runAction, hdraft]
  change (e.runTemplate e.actionEnvironment program { contexts := #[{ draft }] }).bind _ = _
  rw [hrun]
  change (e.withIncrementalQuery program draft).bind _ = _
  rw [hincremental]
  change (Except.mapError _ (Draft.apply _ draft).1).bind _ = _
  rw [List.nil_append, hfinish]
  rfl

/-- An action without code whose fuel is not enough. -/
theorem runAction_outOfFuel (himports : e.imports = []) (hcode : program.codeBlocks = [])
    (hliterals : HoldsLiterals program.parts) (hwords : program.literals.length ≤ Nat.pow 2 63)
    (hfuel : ∃ fuel ∈ e.options.fuel, fuel < templateSteps program.parts) {kind : ActionKind}
    {draft : Draft} (hdraft : startDraft program kind = .ok draft) :
    e.runAction program kind = .error (.template { cause := .outOfFuel }) := by
  have hrun := runTemplate_outOfFuel himports hcode hliterals hwords hfuel
    { contexts := #[{ draft }] }
  rw [runAction, hdraft]
  change (e.runTemplate e.actionEnvironment program { contexts := #[{ draft }] }).bind _ = _
  rw [hrun]
  rfl

end Evaluator

/-! ## §2 Drafts -/

/-- An operation gets one statement after the other. -/
theorem apply_giveParts_queries (queries : List String) :
    ∀ d : Draft, d.stage ≠ .compiled → ∃ stage, stage ≠ .compiled ∧
      Draft.apply (Evaluator.giveParts .operation (queries.map fun query => (.query, query))) d =
        (.ok (), { d with stage, queries := d.queries ++ queries }) := by
  induction queries with
  | nil => exact fun d hd => ⟨d.stage, hd, by rw [List.append_nil]; rfl⟩
  | cons query queries ih =>
    intro d hd
    -- Every query that is added makes the draft a configured one.
    obtain ⟨stage, hstage, hrest⟩ :=
      ih { d with stage := .configured, queries := d.queries ++ [query] } (by simp)
    have hfirst : Draft.apply (Evaluator.givePart .operation .query query) d =
        (.ok (), { d with stage := .configured, queries := d.queries ++ [query] }) :=
      (Draft.apply_change _ d).trans (if_neg hd)
    refine ⟨stage, hstage, ?_⟩
    rw [List.map_cons, Evaluator.giveParts, Draft.apply_bind, hfirst]
    rw [List.append_assoc] at hrest
    exact hrest

/-- A draft that is complete can be finished. -/
theorem apply_finish {d : Draft} {payload : Payload} (hstage : d.stage ≠ .compiled)
    (hpayload : d.payload = .ok payload) :
    (Draft.apply Draft.finish d).1 =
      .ok { filePath := d.filePath, name := d.name, schema := d.schema, database := d.database
            dependencies := d.dependencies, descriptor := d.descriptor, tags := d.tags
            disabled := d.disabled, payload } := by
  rw [Draft.apply_finish, if_neg hstage, hpayload]
  rfl

/-- The draft of a file that has no configuration. -/
theorem startDraft_eq_ok {program : Sql.ActionProgram} (hname : program.name ≠ "")
    (hconfig : program.config = none) {kind : ActionKind}
    (hkind : program.type.kind? = some kind) :
    ∃ stage, stage ≠ .compiled ∧ Evaluator.startDraft program kind =
      .ok { stage, kind, filePath := program.filePath, name := program.name
            tableType := program.type.tableType?.getD .table } := by
  have hdeclare : Draft.declare kind program.name program.filePath =
      .ok { kind, filePath := program.filePath, name := program.name } := by
    rw [Draft.declare, if_neg (by simpa using hname)]
  rw [Evaluator.startDraft, hdeclare, hconfig]
  cases htype : program.type with
  | dataset tableType =>
    rw [htype] at hkind
    cases hkind
    exact ⟨.configured, by simp, rfl⟩
  | operations | assertion | declaration | test => exact ⟨.declared, by simp, rfl⟩

section

variable {stage : DraftStage} {tableType : TableType} {filePath name : String}

theorem finish_table (hstage : stage ≠ .compiled) (query : String) :
    (Draft.apply (do
      Evaluator.giveParts .table [(.query, query)]
      Draft.finish) { stage, kind := .table, filePath, name, tableType }).1 =
      .ok { filePath, name, payload := .table { type := tableType, query } } := by
  cases stage with
  | compiled => exact absurd rfl hstage
  | declared | configured => rfl

theorem finish_assertion (hstage : stage ≠ .compiled) (query : String) :
    (Draft.apply (do
      Evaluator.giveParts .assertion [(.query, query)]
      Draft.finish) { stage, kind := .assertion, filePath, name, tableType }).1 =
      .ok { filePath, name, payload := .assertion query } := by
  cases stage with
  | compiled => exact absurd rfl hstage
  | declared | configured => rfl

theorem finish_operation (hstage : stage ≠ .compiled) (queries : List String) :
    (Draft.apply (do
      Evaluator.giveParts .operation (queries.map fun query => (.query, query))
      Draft.finish) { stage, kind := .operation, filePath, name, tableType }).1 =
      .ok { filePath, name, payload := .operation queries false } := by
  obtain ⟨stage', hstage', hgive⟩ := apply_giveParts_queries queries
    { stage, kind := .operation, filePath, name, tableType } hstage
  rw [Draft.apply_bind, hgive]
  exact apply_finish hstage' rfl

end

/-! ## §3 Files -/

open Sql (Tree)

variable {path source : String} {tree : Tree}

/-- The program of a file without code. -/
def plainProgram (path : String) (tree : Tree) : Sql.ActionProgram where
  filePath := path
  name := Path.baseName path
  type := Sql.plainType path
  codeBlocks := []
  parts := Sql.queryParts (Sql.plainType path) (Sql.statements tree.fragments) tree.fragments

theorem plainProgram_name (path : String) (tree : Tree) :
    (plainProgram path tree).name = Path.baseName path := by
  rw [plainProgram]

/-- The texts between the separators of a file that hold more than blanks and comments, without
blanks at their ends. -/
def plainQueries (tree : Tree) : List String :=
  ((tree.fragments.splitOnP Sql.Fragment.isSeparator).filter fun run =>
      !run.all Sql.Fragment.isBlank).map
    fun run => Text.trim (String.ofList (Sql.sourceOf run))

/-- What a file without code says. -/
def plainPayload (path source : String) (tree : Tree) : Payload :=
  match Sql.plainType path with
  | .assertion => .assertion (Text.trim source)
  | .operations => .operation (plainQueries tree) false
  | _ => .table { query := Text.trim source }

theorem plainQueries_eq (tree : Tree) :
    plainQueries tree = (Sql.statements tree.fragments).map fun run =>
      Text.trim (String.ofList (Sql.sourceOf run)) := by
  rw [plainQueries, Sql.statements, Sql.splitRuns_eq_splitOnP]

theorem plainType_cases (path : String) :
    Sql.plainType path = .assertion ∨ Sql.plainType path = .operations ∨
      Sql.plainType path = .dataset .table := by
  unfold Sql.plainType
  split
  · exact .inl rfl
  · split
    · exact .inr (.inl rfl)
    · exact .inr (.inr rfl)

theorem compile_of_isPlain (hpath : Sql.hasEnding ".sql" path = true)
    (hlex : Sql.lex .plain source = .ok tree) (hplain : tree.isPlain = true) :
    Sql.compile path source = .ok (.action (plainProgram path tree)) := by
  have hjinja : Sql.hasEnding ".jinja" path = false :=
    Sql.hasEnding_eq_false hpath (by decide) (by decide)
  have hsqlx : Sql.hasEnding ".sqlx" path = false :=
    Sql.hasEnding_eq_false hpath (by decide) (by decide)
  have hprogram : Sql.compilePlain path source = .ok (plainProgram path tree) := by
    rw [Sql.compilePlain, hlex, plainProgram, ← Sql.codeBlocks_of_isPlain hplain]
    rfl
  rw [Sql.compile, hjinja, hsqlx, hpath, hprogram]
  rfl

theorem captured_of_hasCode (run : List Sql.Fragment) (h : ∀ f ∈ run, f.hasCode = false) :
    captured (Sql.PartBody.ofFragments .query run) =
      (.query, Text.trim (String.ofList (Sql.sourceOf run))) := by
  rw [captured, Sql.PartBody.ofFragments, (Sql.holdsText_ofFragments run h).join_literals]

/-- The parts of a file without code are made of fragments without code. -/
theorem exists_run_of_mem_parts (hplain : tree.isPlain = true) :
    ∀ part ∈ (plainProgram path tree).parts, ∃ run : List Sql.Fragment,
      (∀ f ∈ run, f.hasCode = false) ∧ part = .ofFragments .query run := by
  intro part hpart
  simp only [plainProgram, Sql.queryParts] at hpart
  split at hpart
  · cases hpart
  · obtain ⟨run, hrun, rfl⟩ := List.mem_map.1 hpart
    exact ⟨run, Sql.hasCode_of_mem_statements hplain run hrun, rfl⟩
  · exact ⟨_, Sql.hasCode_of_isPlain hplain, List.mem_singleton.1 hpart⟩

theorem holdsLiterals_of_isPlain (hplain : tree.isPlain = true) :
    HoldsLiterals (plainProgram path tree).parts := by
  intro part hpart
  obtain ⟨run, hrun, rfl⟩ := exists_run_of_mem_parts hplain part hpart
  exact (Sql.holdsText_ofFragments run hrun).isLiteral

theorem length_literals_of_isPlain (path : String) (hplain : tree.isPlain = true) :
    ∀ part ∈ (plainProgram path tree).parts, (Sql.Piece.literals part.pieces).length ≤ 1 := by
  intro part hpart
  obtain ⟨run, hrun, rfl⟩ := exists_run_of_mem_parts hplain part hpart
  exact (Sql.holdsText_ofFragments run hrun).length_literals

/-- A file without code has one part, or one for each of its statements. -/
theorem length_parts_le
    (hcount : Sql.plainType path = .operations → (plainQueries tree).length ≤ 1000000) :
    (plainProgram path tree).parts.length ≤ 1000000 := by
  rw [plainQueries_eq, List.length_map] at hcount
  simp only [plainProgram, Sql.queryParts]
  split
  · simp
  · next htype => simpa using hcount htype
  · simp

/-- What is captured of a file without code is what it says. -/
theorem finish_of_isPlain (hname : Path.baseName path ≠ "")
    (hlex : Sql.lex .plain source = .ok tree) (hplain : tree.isPlain = true) :
    ∃ kind draft, (plainProgram path tree).type.kind? = some kind ∧
      Evaluator.startDraft (plainProgram path tree) kind = .ok draft ∧
      draft.tableType ≠ .incremental ∧
      (Draft.apply (do
        Evaluator.giveParts draft.kind ((plainProgram path tree).parts.map captured)
        Draft.finish) draft).1 =
        .ok { filePath := path, name := Path.baseName path
              payload := plainPayload path source tree } := by
  have hstart (kind : ActionKind) (hkind : (plainProgram path tree).type.kind? = some kind) :
      ∃ stage, stage ≠ .compiled ∧ Evaluator.startDraft (plainProgram path tree) kind =
        .ok { stage, kind, filePath := path, name := Path.baseName path
              tableType := (plainProgram path tree).type.tableType?.getD .table } := by
    rw [← plainProgram_name path tree] at hname ⊢
    exact startDraft_eq_ok hname rfl hkind
  have hwhole : captured (.ofFragments .query tree.fragments) = (.query, Text.trim source) := by
    rw [captured_of_hasCode _ (Sql.hasCode_of_isPlain hplain), Sql.sourceOf_of_isPlain hlex hplain,
      String.ofList_toList]
  have hstatements : ((Sql.statements tree.fragments).map (.ofFragments .query)).map captured =
      (plainQueries tree).map fun query => (.query, query) := by
    rw [plainQueries_eq, List.map_map, List.map_map]
    exact List.map_congr_left fun run hrun =>
      captured_of_hasCode run (Sql.hasCode_of_mem_statements hplain run hrun)
  -- An assertion and a table have one query, which is the whole text; an operation has several.
  rcases plainType_cases path with htype | htype | htype
  · have hkind : (plainProgram path tree).type.kind? = some .assertion :=
      congrArg ConfigType.kind? htype
    obtain ⟨stage, hstage, hdraft⟩ := hstart _ hkind
    refine ⟨_, _, hkind, hdraft, by simp [plainProgram, htype, ConfigType.tableType?], ?_⟩
    simpa [plainProgram, plainPayload, htype, Sql.queryParts, hwhole] using
      finish_assertion hstage (Text.trim source)
  · have hkind : (plainProgram path tree).type.kind? = some .operation :=
      congrArg ConfigType.kind? htype
    obtain ⟨stage, hstage, hdraft⟩ := hstart _ hkind
    refine ⟨_, _, hkind, hdraft, by simp [plainProgram, htype, ConfigType.tableType?], ?_⟩
    simp only [plainProgram, plainPayload, htype, Sql.queryParts, hstatements]
    exact finish_operation hstage (plainQueries tree)
  · have hkind : (plainProgram path tree).type.kind? = some .table :=
      congrArg ConfigType.kind? htype
    obtain ⟨stage, hstage, hdraft⟩ := hstart _ hkind
    refine ⟨_, _, hkind, hdraft, by simp [plainProgram, htype, ConfigType.tableType?], ?_⟩
    simpa [plainProgram, plainPayload, htype, Sql.queryParts, hwhole, ConfigType.tableType?] using
      finish_table hstage (Text.trim source)

/-- A file without code is registered as it stands. -/
theorem evaluate_of_isPlain {e : Evaluator} (himports : e.imports = [])
    (hfuel : e.options.fuel = ({} : Options).fuel) (hpath : Sql.hasEnding ".sql" path = true)
    (hname : Path.baseName path ≠ "") (hlex : Sql.lex .plain source = .ok tree)
    (hplain : tree.isPlain = true)
    (hcount : Sql.plainType path = .operations → (plainQueries tree).length ≤ 1000000) :
    ∃ program, Sql.compile path source = .ok program ∧
      e.evaluate program = .ok
        { registrations :=
            [{ filePath := path, name := Path.baseName path, dependencies := []
               payload := plainPayload path source tree }]
          tests := [], warnings := [] } := by
  obtain ⟨kind, draft, hkind, hdraft, htype, hfinish⟩ := finish_of_isPlain hname hlex hplain
  have hparts : (plainProgram path tree).parts.length ≤ 1000000 := length_parts_le hcount
  have hsteps := templateSteps_le (length_literals_of_isPlain path hplain)
  have hwords : (plainProgram path tree).literals.length ≤ Nat.pow 2 63 :=
    Nat.le_trans (length_flatMap_literals_le (length_literals_of_isPlain path hplain))
      (Nat.le_trans hparts (by decide))
  refine ⟨_, compile_of_isPlain hpath hlex hplain, ?_⟩
  rw [Evaluator.evaluate, hkind]
  refine Evaluator.runAction_of_literals himports rfl (holdsLiterals_of_isPlain hplain) hwords ?_
    hdraft htype hfinish
  intro fuel hleft
  rw [hfuel] at hleft
  cases hleft
  omega

/-- Text that looks like template code, and a statement that is no more than a comment. -/
theorem evaluate_of_isPlain_templateLike :
    let path := "definitions/odd.ops.sql"
    let source := "SELECT '\x7b\x7b x \x7d\x7d', \"\\\\b\" \x7b% if %\x7d\n---\n" ++
      "-- no \x7b# statement\n---\nSELECT `t`\n"
    ∃ program, Sql.compile path source = .ok program ∧
      ({ project := default } : Evaluator).evaluate program = .ok
        { registrations :=
            [{ filePath := path, name := "odd", dependencies := []
               payload := .operation
                 ["SELECT '\x7b\x7b x \x7d\x7d', \"\\\\b\" \x7b% if %\x7d", "SELECT `t`"] false }]
          tests := [], warnings := [] } := by
  intro path source
  let tree : Tree := ⟨.plain,
    [ .fragment (.text "SELECT "), .fragment (.quoted [.text "'\x7b\x7b x \x7d\x7d'"]),
      .fragment (.text ", "), .fragment (.quoted [.text "\"\\\\b\""]),
      .fragment (.text " \x7b% if %\x7d\n"), .fragment (.separator "---"), .fragment (.text "\n"),
      .fragment (.comment "-- no \x7b# statement"), .fragment (.text "\n"),
      .fragment (.separator "---"), .fragment (.text "\nSELECT "),
      .fragment (.quoted [.text "`t`"]), .fragment (.text "\n") ]⟩
  have hlex : Sql.lex .plain source = .ok tree := by decide +kernel
  have hpath : Sql.hasEnding ".sql" path = true := by decide +kernel
  have hname : Path.baseName path = "odd" := by decide +kernel
  have hpayload : plainPayload path source tree = .operation
      ["SELECT '\x7b\x7b x \x7d\x7d', \"\\\\b\" \x7b% if %\x7d", "SELECT `t`"] false := by
    decide +kernel
  obtain ⟨program, hcompile, hevaluate⟩ := evaluate_of_isPlain (e := { project := default })
    rfl rfl hpath (by rw [hname]; decide) hlex rfl fun _ => by decide +kernel
  rw [hname, hpayload] at hevaluate
  exact ⟨program, hcompile, hevaluate⟩

/-! ## §4 Files of many statements -/

/-- The text of some statements, each with a separator line after it. -/
def manyStatements (n : Nat) : String :=
  String.ofList (List.replicate n "\na\n---".toList).flatten

/-- The nodes of such a text. -/
def manyNodes (n : Nat) : List Sql.Node :=
  (List.replicate n [.fragment (.text "\na\n"), .fragment (.separator "---")]).flatten

/-- A file from its first node. -/
theorem scanFile_cons {dialect : Sql.Dialect} {prev : Option Char} {c : Char} {cs rest : List Char}
    {node : Sql.Node} (h : Sql.scanNode dialect prev c cs = .ok (node, rest)) :
    Sql.scanFile dialect prev (c :: cs) =
      (Sql.scanFile dialect (Sql.lastChar prev node.source) rest).map (node :: ·) := by
  rw [Sql.scanFile]
  split <;> simp_all

theorem scanFile_manyStatements (n : Nat) :
    ∀ prev ∈ [none, some '-'],
      Sql.scanFile .plain prev (List.replicate n "\na\n---".toList).flatten =
        .ok (manyNodes n) := by
  induction n with
  | zero =>
    intro prev _
    unfold Sql.scanFile
    rfl
  | succ n ih =>
    intro prev hprev
    let rest := (List.replicate n "\na\n---".toList).flatten
    have hrest : Sql.scanFile .plain (some '-') rest = .ok (manyNodes n) := ih _ (by simp)
    -- A statement goes on to the separator, which is one because it stands after a line end.
    have htext : Sql.scanNode .plain prev '\n' ("a\n---".toList ++ rest) =
        .ok (.fragment (.text "\na\n"), "---".toList ++ rest) := by
      simp only [List.mem_cons, List.not_mem_nil, or_false] at hprev
      rcases hprev with rfl | rfl <;> cases n <;> rfl
    have hseparator : Sql.scanNode .plain (some '\n') '-' ("--".toList ++ rest) =
        .ok (.fragment (.separator "---"), rest) := by
      cases n <;> rfl
    have hbreak : Sql.lastChar prev (Sql.Node.fragment (.text "\na\n")).source = some '\n' := rfl
    have hdash :
        Sql.lastChar (some '\n') (Sql.Node.fragment (.separator "---")).source = some '-' := rfl
    refine (scanFile_cons htext).trans ?_
    rw [hbreak]
    refine (congrArg _ (scanFile_cons hseparator)).trans ?_
    rw [hdash, hrest]
    rfl

/-- The tree of such a text. -/
theorem lex_manyStatements (n : Nat) :
    Sql.lex .plain (manyStatements n) = .ok ⟨.plain, manyNodes n⟩ := by
  unfold Sql.lex
  rw [manyStatements, String.toList_ofList, scanFile_manyStatements n none (by simp)]

theorem isPlain_manyNodes (n : Nat) : (⟨.plain, manyNodes n⟩ : Tree).isPlain = true := by
  induction n with
  | zero => rfl
  | succ n ih => exact ih

theorem statements_manyNodes (n : Nat) :
    Sql.statements (⟨.plain, manyNodes n⟩ : Tree).fragments = List.replicate n [.text "\na\n"] := by
  induction n with
  | zero => rfl
  | succ n ih => exact congrArg ([.text "\na\n"] :: ·) ih

/-- A file of too many statements runs out of fuel. -/
theorem evaluate_manyStatements {e : Evaluator} (himports : e.imports = [])
    (hname : Path.baseName path ≠ "") (htype : Sql.plainType path = .operations) {n fuel : Nat}
    (hfuel : e.options.fuel = some fuel) (hmany : fuel + 1 < 3 * n) (hn : n ≤ Nat.pow 2 63) :
    e.evaluate (.action (plainProgram path ⟨.plain, manyNodes n⟩)) =
      .error (.template { cause := .outOfFuel }) := by
  have hplain := isPlain_manyNodes n
  have hparts : (plainProgram path ⟨.plain, manyNodes n⟩).parts.length = n := by
    simp [plainProgram, htype, Sql.queryParts, statements_manyNodes]
  have hsteps := le_templateSteps (plainProgram path ⟨.plain, manyNodes n⟩).parts
  have hwords : (plainProgram path ⟨.plain, manyNodes n⟩).literals.length ≤ Nat.pow 2 63 :=
    Nat.le_trans (length_flatMap_literals_le (length_literals_of_isPlain path hplain))
      (hparts.symm ▸ hn)
  have hkind : (plainProgram path ⟨.plain, manyNodes n⟩).type.kind? = some .operation :=
    congrArg ConfigType.kind? htype
  rw [← plainProgram_name path ⟨.plain, manyNodes n⟩] at hname
  obtain ⟨stage, -, hdraft⟩ := startDraft_eq_ok hname rfl hkind
  rw [Evaluator.evaluate, hkind]
  exact Evaluator.runAction_outOfFuel himports rfl (holdsLiterals_of_isPlain hplain) hwords
    ⟨fuel, hfuel, by omega⟩ hdraft

/-- Four million statements are too many for the fuel that every file is given. -/
theorem evaluate_plain_outOfFuel :
    let path := "definitions/many.ops.sql"
    let source := manyStatements 4000000
    Sql.hasEnding ".sql" path = true ∧ Path.baseName path ≠ "" ∧
      ∃ tree program, Sql.lex .plain source = .ok tree ∧ tree.isPlain = true ∧
        Sql.compile path source = .ok program ∧
        ({ project := default } : Evaluator).evaluate program =
          .error (.template { cause := .outOfFuel }) := by
  have hpath : Sql.hasEnding ".sql" "definitions/many.ops.sql" = true := by decide
  have hname : Path.baseName "definitions/many.ops.sql" ≠ "" := by decide
  exact ⟨hpath, hname, _, _, lex_manyStatements _, isPlain_manyNodes _,
    compile_of_isPlain hpath (lex_manyStatements _) (isPlain_manyNodes _),
    evaluate_manyStatements rfl hname (by decide) rfl (by decide) (by decide)⟩

end SqlWorkflow.Evaluation
