import SqlWorkflow.Text.Split
import SqlWorkflow.Text.Blank

/-!
# Trees of definition files

A definition file is literal SQL with embedded code.  Its tree keeps every character of the text:
writing out the nodes in order gives the file back (`Tree.source`).

Quoted text and comments are opaque, except that a placeholder inside quotes is still one.  Code
blocks and sections stand only at the top of a file, which is why they are nodes and not
fragments.
-/

namespace SqlWorkflow.Sql

/-- The two kinds of definition files. -/
inductive Dialect where
  /-- Comments with a marker hold code. -/
  | plain
  /-- Sections in braces hold code and further SQL; all comments are opaque. -/
  | sectioned
  deriving DecidableEq, Repr, Inhabited

/-- A part of a quoted text.  The quotes belong to the first and the last text. -/
inductive QuotedPart where
  | text (s : String)
  | placeholder (expr : String)
  deriving DecidableEq, Repr, Inhabited

/-- A piece of SQL. -/
inductive Fragment where
  /-- Literal text outside quotes and comments. -/
  | text (s : String)
  | quoted (parts : List QuotedPart)
  | comment (s : String)
  /-- A line that separates two statements, without its line break. -/
  | separator (s : String)
  /-- An expression that is evaluated in place. -/
  | placeholder (expr : String)
  deriving DecidableEq, Repr, Inhabited

/-- The sections that hold code. -/
inductive CodeSection where
  | config
  | jinja
  deriving DecidableEq, Repr, Inhabited

/-- The sections that hold SQL. -/
inductive SqlSection where
  | preOperations
  | postOperations
  | incrementalWhere
  /-- The rows that a unit test puts in the place of one reference. -/
  | input
  deriving DecidableEq, Repr, Inhabited

/-- The word that opens a section. -/
inductive Keyword where
  | code (kind : CodeSection)
  | sql (kind : SqlSection)
  deriving DecidableEq, Repr, Inhabited

namespace Keyword

/-- The spelling of the keyword. -/
def text : Keyword → String
  | .code .config => "config"
  | .code .jinja => "jinja"
  | .sql .preOperations => "pre_operations"
  | .sql .postOperations => "post_operations"
  | .sql .incrementalWhere => "incremental_where"
  | .sql .input => "input"

/-- All keywords. -/
def all : List Keyword :=
  [.code .config, .code .jinja, .sql .preOperations, .sql .postOperations,
    .sql .incrementalWhere, .sql .input]

end Keyword

/-- What stands between the braces of a section. -/
inductive SectionBody where
  | code (s : String)
  | sql (fragments : List Fragment)
  deriving DecidableEq, Repr, Inhabited

/-- A part of a definition file. -/
inductive Node where
  | fragment (f : Fragment)
  /-- A comment whose marker makes it code; `opening` and `closing` are its delimiters. -/
  | codeBlock (opening code closing : String)
  /-- A section between `opening`, which ends with a brace, and a closing brace. -/
  | braced (keyword : Keyword) (opening : String) (body : SectionBody)
  deriving DecidableEq, Repr, Inhabited

/-- A definition file. -/
structure Tree where
  dialect : Dialect
  nodes : List Node
  deriving DecidableEq, Repr, Inhabited

/-! ## §1 Source text -/

/-- The characters of a placeholder. -/
def placeholderSource (expr : String) : List Char :=
  '$' :: '\x7b' :: expr.toList ++ ['\x7d']

/-- The characters of a part of a quoted text. -/
def QuotedPart.source : QuotedPart → List Char
  | .text s => s.toList
  | .placeholder expr => placeholderSource expr

/-- The characters of a fragment. -/
def Fragment.source : Fragment → List Char
  | .text s => s.toList
  | .quoted parts => parts.flatMap QuotedPart.source
  | .comment s => s.toList
  | .separator s => s.toList
  | .placeholder expr => placeholderSource expr

/-- The characters of the body of a section. -/
def SectionBody.source : SectionBody → List Char
  | .code s => s.toList
  | .sql fragments => fragments.flatMap Fragment.source

/-- The characters of a node. -/
def Node.source : Node → List Char
  | .fragment f => f.source
  | .codeBlock opening code closing => opening.toList ++ code.toList ++ closing.toList
  | .braced _ opening body => opening.toList ++ body.source ++ ['\x7d']

/-- The characters of a list of fragments. -/
def sourceOf (fragments : List Fragment) : List Char := fragments.flatMap Fragment.source

/-- The text of a file. -/
def Tree.source (t : Tree) : String := String.ofList (t.nodes.flatMap Node.source)

/-! ## §2 Embedded code -/

/-- Does the fragment hold a placeholder? -/
def Fragment.hasCode : Fragment → Bool
  | .placeholder _ => true
  | .quoted parts => parts.any fun
    | .placeholder _ => true
    | .text _ => false
  | _ => false

/-- Does the node hold code? -/
def Node.hasCode : Node → Bool
  | .fragment f => f.hasCode
  | _ => true

/-- Does the file hold no code at all? -/
def Tree.isPlain (t : Tree) : Bool := t.nodes.all fun node => !node.hasCode

/-- The code of the code blocks, in order. -/
def Tree.codeBlocks (t : Tree) : List String :=
  t.nodes.filterMap fun
    | .codeBlock _ code _ => some code
    | _ => none

/-- The nodes that are fragments. -/
def Tree.fragments (t : Tree) : List Fragment :=
  t.nodes.filterMap fun
    | .fragment f => some f
    | _ => none

/-! ## §3 Statements -/

/-- Is the fragment a separator? -/
def Fragment.isSeparator : Fragment → Bool
  | .separator _ => true
  | _ => false

/-- Does the fragment add nothing to a statement? -/
def Fragment.isBlank : Fragment → Bool
  | .text s => Text.isAllBlank s
  | .comment _ => true
  | _ => false

/-- The runs of fragments between separators; at least one. -/
def splitRuns : List Fragment → List (List Fragment)
  | [] => [[]]
  | f :: rest =>
    if f.isSeparator then [] :: splitRuns rest
    else
      match splitRuns rest with
      | [] => [[f]]
      | run :: runs => (f :: run) :: runs

/-- The statements: the runs between separators that hold more than blanks and comments. -/
def statements (fragments : List Fragment) : List (List Fragment) :=
  (splitRuns fragments).filter fun run => !run.all Fragment.isBlank

end SqlWorkflow.Sql
