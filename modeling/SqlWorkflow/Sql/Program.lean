import SqlWorkflow.Action.Config
import SqlWorkflow.Path
import SqlWorkflow.Sql.Escape
import SqlWorkflow.Sql.Sections

/-!
# Programs

A definition file becomes a program: a script, which is run as it stands, or the template of one
action.  The template of an action calls a filter for each part of the action.  Inside the filter
every stretch of literal SQL is a look-up in a table of literals, so no SQL is ever read as
template code; only the code of placeholders and code blocks is.
-/

namespace SqlWorkflow.Sql

/-! ## §1 The parts of an action -/

/-- What a stretch of SQL is for. -/
inductive Part where
  /-- The query; an operation has one for each statement. -/
  | query
  | preOps
  | postOps
  | incrementalWhere
  /-- The rows of an input of a unit test. -/
  | input
  deriving DecidableEq, Repr, Inhabited

namespace Part

/-- All parts. -/
def all : List Part := [.query, .preOps, .postOps, .incrementalWhere, .input]

/-- The name of a part in templates. -/
def name : Part → String
  | .query => "query"
  | .preOps => "preOps"
  | .postOps => "postOps"
  | .incrementalWhere => "where"
  | .input => "input"

/-- The part with a name. -/
def ofName? (name : String) : Option Part := all.find? fun part => part.name == name

end Part

/-- A piece of the template of a part. -/
inductive Piece where
  /-- Literal SQL, looked up in the table of literals. -/
  | literal (sql : String)
  /-- An expression that is evaluated. -/
  | code (expr : String)
  deriving DecidableEq, Repr, Inhabited

namespace Piece

/-- The pieces after some literal SQL; neighbouring literals are one. -/
def consLiteral (sql : String) : List Piece → List Piece
  | .literal rest :: pieces => .literal (sql ++ rest) :: pieces
  | pieces => .literal sql :: pieces

/-- The pieces of a quoted text, followed by `rest`. -/
def ofQuoted (parts : List QuotedPart) (rest : List Piece) : List Piece :=
  match parts with
  | [] => rest
  | .text s :: parts => consLiteral s (ofQuoted parts rest)
  | .placeholder expr :: parts => .code (Text.trim expr) :: ofQuoted parts rest

/-- The pieces of SQL. -/
def ofFragments : List Fragment → List Piece
  | [] => []
  | .placeholder expr :: rest => .code (Text.trim expr) :: ofFragments rest
  | .quoted parts :: rest => ofQuoted parts (ofFragments rest)
  | .text s :: rest => consLiteral s (ofFragments rest)
  | .comment s :: rest => consLiteral s (ofFragments rest)
  | .separator s :: rest => consLiteral s (ofFragments rest)

/-- The literals among the pieces. -/
def literals (pieces : List Piece) : List String :=
  pieces.filterMap fun
    | .literal sql => some sql
    | .code _ => none

/-- The name of the table of literals in templates. -/
def literalsName : String := "__lit"

/-- The template text of the pieces, the first literal being number `start`. -/
def template (start : Nat) : List Piece → String
  | [] => ""
  | .literal _ :: rest =>
    "\x7b\x7b " ++ literalsName ++ "[" ++ toString start ++ "] \x7d\x7d" ++
      template (start + 1) rest
  | .code expr :: rest => "\x7b\x7b (" ++ expr ++ ") \x7d\x7d" ++ template start rest

end Piece

/-- A part of an action with its SQL. -/
structure PartBody where
  part : Part
  /-- The SQL as it stands in the file, without blanks at its ends. -/
  source : String
  pieces : List Piece
  deriving DecidableEq, Repr, Inhabited

namespace PartBody

/-- The part of an action that some SQL is. -/
def ofFragments (part : Part) (fragments : List Fragment) : PartBody where
  part := part
  source := Text.trim (String.ofList (sourceOf fragments))
  pieces := Piece.ofFragments fragments

/-- The name of the filter that receives the text of a part. -/
def filterName : String := "section"

/-- The template text of the part, its first literal being number `start`. -/
def template (start : Nat) (body : PartBody) : String :=
  "\x7b% filter " ++ filterName ++ "(\"" ++ body.part.name ++ "\") %\x7d" ++
    Piece.template start body.pieces ++ "\x7b% endfilter %\x7d\n"

/-- The template text of several parts. -/
def templateAll (start : Nat) : List PartBody → String
  | [] => ""
  | body :: rest =>
    body.template start ++ templateAll (start + (Piece.literals body.pieces).length) rest

end PartBody

/-! ## §2 Programs -/

/-- The program of a file that defines one action. -/
structure ActionProgram where
  filePath : String
  /-- The name of the action unless the configuration gives another. -/
  name : String
  type : ConfigType
  config : Option ActionConfig := none
  codeBlocks : List String
  parts : List PartBody
  /-- The names of the inputs, in the order of the input parts. -/
  inputNames : List String := []
  deriving Repr, Inhabited

namespace ActionProgram

/-- The text of the code blocks, each on lines of its own. -/
def codeLines (p : ActionProgram) : String :=
  String.join (p.codeBlocks.map fun code => Text.trim code ++ "\n")

/-- The text of the template. -/
def template (p : ActionProgram) : String := p.codeLines ++ PartBody.templateAll 0 p.parts

/-- The table of literals that the template looks up. -/
def literals (p : ActionProgram) : List String :=
  p.parts.flatMap fun body => Piece.literals body.pieces

/-- Does the program have a part of the given kind? -/
def has (p : ActionProgram) (part : Part) : Bool := p.parts.any fun body => body.part == part

/-- The program for a reader: the code blocks, then each part between backticks. -/
def listing (p : ActionProgram) : String :=
  p.codeLines ++ String.join (p.parts.map fun body =>
    body.part.name ++ ": `" ++ escapeBackticks body.source ++ "`\n")

end ActionProgram

/-- What a definition file becomes. -/
inductive Program where
  | script (filePath source : String)
  | action (program : ActionProgram)
  deriving Repr, Inhabited

/-- The path of the file. -/
def Program.filePath : Program → String
  | .script filePath _ => filePath
  | .action program => program.filePath

/-! ## §3 Rules -/

/-- The configuration of a file, if it has one. -/
def Sections.config (s : Sections) : Except ProgramError (Option ActionConfig) :=
  match s.configs with
  | [] => .ok none
  | [body] =>
    match ActionConfig.ofBlock body with
    | .ok config => .ok (some config)
    | .error e => .error (.config e)
  | _ => .error (.violations [.severalConfigs])

/-- Every rule that a file of the given type breaks. -/
def violations (s : Sections) (config : ActionConfig) (type : ConfigType) : List Violation :=
  let hasOutput := config.hasOutput.getD false
  let isOperations := type == .operations
  let isIncremental := type == .dataset .incremental
  let isDeclaration := type == .declaration
  let isTest := type == .test
  let rules : List (Violation × Bool) :=
    [ (.severalStatements, 1 < s.statements.length && !isOperations),
      (.outputFlag, hasOutput && !isOperations),
      (.columns, config.columns.isSome && !(type.isDataset || hasOutput || isDeclaration)),
      (.protectedFlag, config.isProtected.getD false && !isIncremental),
      (.whereClause, s.incrementalWhere.isSome && !isIncremental),
      (.declarationWithoutSchema, isDeclaration && config.schema.isNone),
      (.declarationWithSql, isDeclaration && !s.statements.isEmpty),
      (.datasetOutsideTest, config.dataset.isSome && !isTest),
      (.testWithoutDataset, config.dataset.isNone && isTest),
      (.inputOutsideTest, !s.inputs.isEmpty && !isTest),
      (.disabledFlag, config.disabled.getD false && !type.isDataset),
      (.warehouseOptions, config.bigquery.isSome && !type.isDataset),
      (.preOperations, !s.preOperations.isEmpty && !type.isDataset),
      (.postOperations, !s.postOperations.isEmpty && !type.isDataset) ]
  (rules.filter (·.2)).map (·.1)

/-! ## §4 Compiling -/

/-- Does the path end in the given way? -/
def hasEnding (ending path : String) : Bool := ending.toList.isSuffixOf path.toList

/-- A path has one of two endings only, unless one of them ends in the other. -/
theorem hasEnding_eq_false {ending other path : String} (h : hasEnding ending path = true)
    (hother : ¬ other.toList <:+ ending.toList) (hending : ¬ ending.toList <:+ other.toList) :
    hasEnding other path = false := by
  rw [Bool.eq_false_iff]
  intro hboth
  exact (List.suffix_or_suffix_of_suffix (List.isSuffixOf_iff_suffix.1 hboth)
    (List.isSuffixOf_iff_suffix.1 h)).elim hother hending

/-- The type that the name of a file of the plain dialect tells. -/
def plainType (filePath : String) : ConfigType :=
  if hasEnding ".assert.sql" filePath then .assertion
  else if hasEnding ".ops.sql" filePath then .operations
  else .dataset .table

/-- The queries of a file: operations have one for each statement. -/
def queryParts (type : ConfigType) (statements : List (List Fragment))
    (otherwise : List Fragment) : List PartBody :=
  match type with
  | .declaration => []
  | .operations => statements.map (PartBody.ofFragments .query)
  | _ => [PartBody.ofFragments .query otherwise]

/-- The program of a file of the plain dialect. -/
def compilePlain (filePath source : String) : Except ProgramError ActionProgram := do
  let tree ← (lex .plain source).mapError .lex
  let type := plainType filePath
  return {
    filePath, type
    name := Path.baseName filePath
    codeBlocks := tree.codeBlocks
    parts := queryParts type (statements tree.fragments) tree.fragments }

/-- The parts of an action in the order of the template. -/
def sectionParts (type : ConfigType) (s : Sections) : List PartBody :=
  queryParts type s.statements (s.statements.head?.getD []) ++
    s.preOperations.map (PartBody.ofFragments .preOps) ++
    s.postOperations.map (PartBody.ofFragments .postOps) ++
    s.incrementalWhere.toList.map (PartBody.ofFragments .incrementalWhere) ++
    s.inputs.map fun input => PartBody.ofFragments .input input.2

/-- The program of a file of the sectioned dialect. -/
def compileSectioned (filePath source : String) : Except ProgramError ActionProgram := do
  let tree ← (lex .sectioned source).mapError .lex
  let s ← (Sections.ofTree tree).mapError fun rule => .violations [rule]
  let config ← s.config
  let type := (config.bind (·.type)).getD (.dataset .table)
  match violations s (config.getD {}) type with
  | [] =>
    return {
      filePath, type, config
      name := Path.baseName filePath
      codeBlocks := s.code
      parts := sectionParts type s
      inputNames := s.inputs.map (·.1) }
  | broken => .error (.violations broken)

/-- The program of a definition file, whose ending tells what kind of file it is. -/
def compile (filePath source : String) : Except ProgramError Program :=
  if hasEnding ".jinja" filePath then .ok (.script filePath source)
  else if hasEnding ".sqlx" filePath then (compileSectioned filePath source).map .action
  else if hasEnding ".sql" filePath then (compilePlain filePath source).map .action
  else .error (.unsupported filePath)

/-- The program of a definition file of a project without files of the sectioned dialect. -/
def compileLegacy (filePath source : String) : Except ProgramError Program :=
  if hasEnding ".sqlx" filePath then .error (.unsupported filePath)
  else compile filePath source

end SqlWorkflow.Sql
