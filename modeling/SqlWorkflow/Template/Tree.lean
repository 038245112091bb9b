/-!
# Template trees

A template is a list of statements.  A statement writes text, binds names or chooses what to run
next; an expression denotes a value.

A node whose evaluation may fail by itself holds the line on which such a failure is reported:
the line on which the last of its operands stands.

Some statements give names to parts of a template: the blocks, which a template that extends this
one may replace.  What holds of a template as a whole is said of all its statements.
-/

namespace SqlWorkflow.Template

/-- A constant. -/
inductive Literal where
  | none
  | bool (b : Bool)
  | int (n : Nat)
  | float (x : Float)
  | text (s : String)
  deriving Repr, Inhabited

/-- An operation on two values. -/
inductive BinaryOp where
  | equal
  | differs
  | below
  | belowOrEqual
  | above
  | aboveOrEqual
  | add
  | subtract
  | multiply
  | divide
  | divideWhole
  | remainder
  | power
  /-- Writes both values one after the other. -/
  | concat
  /-- Is the first value a member of the second? -/
  | within
  deriving DecidableEq, Repr, Inhabited

/-- How an argument is passed. -/
inductive ArgKind where
  | plain
  | named (name : String)
  /-- The items of a list, each as an argument. -/
  | spread
  /-- The entries of a dictionary, each as a named argument. -/
  | spreadNamed
  deriving DecidableEq, Repr, Inhabited

/-- An expression. -/
inductive Expr where
  /-- What an absent `else` denotes. -/
  | undefined
  | literal (value : Literal)
  | name (id : String)
  | list (items : List Expr)
  | dict (entries : List (Expr × Expr))
  | negate (line : Nat) (operand : Expr)
  | not (operand : Expr)
  | binary (line : Nat) (op : BinaryOp) (left right : Expr)
  /-- The first operand if it is false, else the second. -/
  | both (left right : Expr)
  /-- The first operand if it is true, else the second. -/
  | either (left right : Expr)
  | choose (condition yes no : Expr)
  | filter (line : Nat) (name : String) (subject : Expr) (args : List (ArgKind × Expr))
  | test (line : Nat) (name : String) (subject : Expr) (args : List (ArgKind × Expr))
  | member (line : Nat) (subject : Expr) (name : String)
  | item (line : Nat) (subject key : Expr)
  | slice (line : Nat) (subject start stop step : Expr)
  | callName (line : Nat) (function : String) (args : List (ArgKind × Expr))
  | callMethod (line : Nat) (subject : Expr) (method : String) (args : List (ArgKind × Expr))
  | callValue (line : Nat) (subject : Expr) (args : List (ArgKind × Expr))
  /-- What a block of the template writes. -/
  | showBlock (line : Nat) (name : String)
  deriving Repr, Inhabited

/-- Is the expression a call? -/
def Expr.isCall : Expr → Bool
  | .callName .. | .callMethod .. | .callValue .. | .showBlock .. => true
  | _ => false

/-- A filter that is applied to text. -/
structure FilterCall where
  line : Nat
  name : String
  args : List (ArgKind × Expr)
  deriving Repr, Inhabited

/-- What a value is bound to. -/
inductive Target where
  | name (id : String)
  /-- An attribute of a scope. -/
  | member (line : Nat) (subject : Expr) (name : String)
  /-- As many targets as the value has items. -/
  | list (line : Nat) (items : List Target)
  /-- Something that nothing can be bound to. -/
  | impossible
  deriving Repr, Inhabited

mutual

/-- What an expression stands for where something is bound to it. -/
def Target.ofExpr (line : Nat) : Expr → Target
  | .name id => .name id
  | .member line subject name => .member line subject name
  | .list items => .list line (targetsOfExprs line items)
  | _ => .impossible

def targetsOfExprs (line : Nat) : List Expr → List Target
  | [] => []
  | item :: rest => Target.ofExpr line item :: targetsOfExprs line rest

end

mutual

/-- Can something be bound to the target? -/
def Target.isPossible : Target → Bool
  | .name _ | .member _ _ _ => true
  | .list _ items => arePossible items
  | .impossible => false

def arePossible : List Target → Bool
  | [] => true
  | item :: rest => item.isPossible && arePossible rest

end

/-- A parameter of a template function, with what it denotes when no argument is given. -/
structure Param where
  name : String
  fallback : Option Expr
  deriving Repr, Inhabited

/-- A statement. -/
inductive Stmt where
  /-- Writes text as it stands. -/
  | raw (text : String)
  /-- Writes a value. -/
  | emit (value : Expr)
  /-- Goes through the items in a loop; one that is recursive may be gone through again, over other
  items, from inside. -/
  | forLoop (line : Nat) (target : Target) (items : Expr) (condition : Option Expr)
      (recursive : Bool) (body otherwise : List Stmt)
  /-- Goes through the innermost loop again, over other items. -/
  | again (line : Nat) (items : Expr)
  | ifElse (condition : Expr) (yes no : List Stmt)
  | withBlock (bindings : List (Target × Expr)) (body : List Stmt)
  | assign (target : Target) (value : Expr)
  /-- Binds the text that the body writes. -/
  | capture (target : Target) (filters : List FilterCall) (body : List Stmt)
  /-- Writes the text that the body writes, after some filters. -/
  | filtered (filters : List FilterCall) (body : List Stmt)
  /-- Runs another template in this place. -/
  | embed (line : Nat) (template : Expr) (optional : Bool)
  /-- Binds the names of another template as one value. -/
  | importModule (line : Nat) (template : Expr) (bound : Target)
  /-- Binds some names of another template, each under an alias. -/
  | importNames (line : Nat) (template : Expr) (names : List (String × String))
  /-- Defines a function. -/
  | define (name : String) (params : List Param) (body : List Stmt)
  /-- Writes what a call gives that is also passed a function, whose body stands here. -/
  | callWith (call : Expr) (params : List Param) (body : List Stmt)
  /-- Evaluates an expression for its effects. -/
  | run (call : Expr)
  /-- Says whether what the body writes is escaped. -/
  | escaping (line : Nat) (setting : Expr) (body : List Stmt)
  /-- Gives a part of the template a name, and runs what has the name in the end. -/
  | block (line : Nat) (name : String) (body : List Stmt)
  /-- Runs a block of the template. -/
  | showBlock (line : Nat) (name : String)
  /-- Runs what the present block stands in for. -/
  | showSuper (line : Nat)
  /-- Leaves it to another template to write what there is to write. -/
  | extend (line : Nat) (template : Expr)
  deriving Repr, Inhabited

/-! ## §1 Templates as a whole -/

mutual

/-- The statements inside of a statement, at any depth. -/
def Stmt.inside : Stmt → List Stmt
  | .forLoop _ _ _ _ _ body otherwise => allStmts body ++ allStmts otherwise
  | .ifElse _ yes no => allStmts yes ++ allStmts no
  | .withBlock _ body | .capture _ _ body | .filtered _ body | .define _ _ body
  | .callWith _ _ body | .escaping _ _ body | .block _ _ body => allStmts body
  | .raw _ | .emit _ | .again _ _ | .assign _ _ | .embed _ _ _ | .importModule _ _ _
  | .importNames _ _ _ | .run _ | .showBlock _ _ | .showSuper _ | .extend _ _ => []

/-- Some statements with all those inside of them. -/
def allStmts : List Stmt → List Stmt
  | [] => []
  | stmt :: rest => stmt :: (stmt.inside ++ allStmts rest)

end

/-- The name and the body of a block. -/
def Stmt.block? : Stmt → Option (String × List Stmt)
  | .block _ name body => some (name, body)
  | _ => none

/-- The blocks of a template, by their names. -/
def blocksOf (stmts : List Stmt) : List (String × List Stmt) :=
  (allStmts stmts).filterMap Stmt.block?

/-- Does the statement define a function in which there is a block? -/
def Stmt.hidesBlock : Stmt → Bool
  | .define _ _ body | .callWith _ _ body => !(blocksOf body).isEmpty
  | _ => false

/-- Have the blocks of a template names of their own, and is none of them in a function? -/
def hasSoundBlocks (stmts : List Stmt) : Bool :=
  decide ((blocksOf stmts).map (·.1)).Nodup && !(allStmts stmts).any Stmt.hidesBlock

/-- Does the statement bind something to what nothing can be bound to? -/
def Stmt.bindsNothing : Stmt → Bool
  | .importModule _ _ bound => !bound.isPossible
  | _ => false

end SqlWorkflow.Template
