import SqlWorkflow.Template.Fault
import SqlWorkflow.Template.Token
import SqlWorkflow.Template.Tree

/-!
# Reading expressions

An expression is read from the tokens of a template.  From loosest to tightest its parts bind as
follows: `… if … else …`, `or`, `and`, `not`, comparisons with `in` and `not in`, `+` and `-`, `~`,
`*`, `/`, `//` and `%`, `**`, a leading `-`, look-ups and calls, and at last filters and tests.
All operators group to the left.
-/

namespace SqlWorkflow.Template

/-- Why a template cannot be read. -/
inductive Refusal where
  | malformed
  /-- An unknown escape, after a token on the given line. -/
  | badEscape (line : Nat)
  deriving DecidableEq, Repr, Inhabited

/-- The failure that a refusal is, in a template file. -/
def Refusal.toFault (file : String) : Refusal → Fault
  | .malformed => { cause := .malformed }
  | .badEscape line => { cause := .badEscape, place := some ⟨file, line⟩ }

/-- A reader of a part of a template from the tokens ahead. -/
abbrev Reader (α : Type) := StateT (List Token) (Except Refusal) α

namespace Reader

variable {α : Type}

/-! ## §1 Single tokens -/

/-- Fails at the tokens ahead. -/
def refuse : Reader α := fun tokens =>
  match tokens with
  | ⟨.brokenEscape, line⟩ :: _ => .error (.badEscape line)
  | _ => .error .malformed

/-- The next token, if there is one; it stays ahead. -/
def peek : Reader (Option Lexeme) := fun tokens => .ok (tokens.head?.map (·.lexeme), tokens)

/-- The line of the next token. -/
def line : Reader Nat := fun tokens => .ok ((tokens.head?.map (·.line)).getD 1, tokens)

/-- Drops the next token. -/
def skip : Reader Unit := fun tokens => .ok ((), tokens.tail)

/-- Reads a sign if it comes next. -/
def accept (s : Sign) : Reader Bool := fun tokens =>
  match tokens with
  | ⟨.sign t, _⟩ :: rest => if t = s then .ok (true, rest) else .ok (false, tokens)
  | _ => .ok (false, tokens)

/-- Reads a word if it comes next. -/
def acceptWord (word : String) : Reader Bool := fun tokens =>
  match tokens with
  | ⟨.word w, _⟩ :: rest => if w = word then .ok (true, rest) else .ok (false, tokens)
  | _ => .ok (false, tokens)

/-- Reads a sign, which must come next. -/
def expect (s : Sign) : Reader Unit := do
  if ← accept s then pure () else refuse

/-- Reads a word, which must come next. -/
def expectWord (word : String) : Reader Unit := do
  if ← acceptWord word then pure () else refuse

/-- Reads some word. -/
def word : Reader String := fun tokens =>
  match tokens with
  | ⟨.word w, _⟩ :: rest => .ok (w, rest)
  | tokens => refuse tokens

/-- Does a sign come next? -/
def sees (s : Sign) : Reader Bool := do
  match ← peek with
  | some (.sign t) => pure (t = s)
  | _ => pure false

/-- Reads the end of a tag. -/
def closeTag : Reader Unit := fun tokens =>
  match tokens with
  | ⟨.closeTag, _⟩ :: rest => .ok ((), rest)
  | tokens => refuse tokens

/-- Reads the end of an expression that is written. -/
def closeEmit : Reader Unit := fun tokens =>
  match tokens with
  | ⟨.closeEmit, _⟩ :: rest => .ok ((), rest)
  | tokens => refuse tokens

/-- Does the end of a tag come next? -/
def seesClose : Reader Bool := do
  match ← peek with
  | some .closeTag => pure true
  | _ => pure false

end Reader

/-! ## §2 Operands -/

/-- An expression, with the line on which its last part stands. -/
structure Operand where
  tree : Expr
  last : Nat
  deriving Repr, Inhabited

namespace Operand

/-- Is the expression a constant? -/
def isLiteral (o : Operand) : Bool :=
  match o.tree with
  | .literal _ => true
  | _ => false

/-- Two operands joined by an operator. -/
def binary (op : BinaryOp) (left right : Operand) : Operand :=
  ⟨.binary right.last op left.tree right.tree, right.last⟩

/-- The line of the last part of some arguments, which stand after a part on line `start`.  Named
arguments come last; they do not count if all of them are constants. -/
def lastOf (start : Nat) (args : List (ArgKind × Operand)) : Nat :=
  let isNamed (kind : ArgKind) : Bool := match kind with
    | .named _ | .spreadNamed => true
    | .plain | .spread => false
  let isFixed (arg : ArgKind × Operand) : Bool := match arg.1 with
    | .named _ => arg.2.isLiteral
    | _ => false
  let named := args.filter fun arg => isNamed arg.1
  let plain := args.filter fun arg => !isNamed arg.1
  let counted := if named.all isFixed then plain else plain ++ named
  (counted.getLast?.map (·.2.last)).getD start

/-- The arguments as they stand in a tree. -/
def trees (args : List (ArgKind × Operand)) : List (ArgKind × Expr) :=
  args.map fun (kind, o) => (kind, o.tree)

/-- A call of `subject`, whose last part but one is on line `start`. -/
def call (start : Nat) (subject : Operand) (args : List (ArgKind × Operand)) : Operand :=
  match subject.tree with
  | .name function =>
    let last := lastOf start args
    ⟨.callName last function (trees args), last⟩
  -- A method of the template itself is one of its blocks, which takes no arguments.
  | .member _ (.name "self") block => ⟨.showBlock start block, start⟩
  | .member _ owner method =>
    let last := lastOf subject.last args
    ⟨.callMethod last owner method (trees args), last⟩
  | tree =>
    let last := lastOf subject.last args
    ⟨.callValue last tree (trees args), last⟩

/-- A slice, of which any part may be absent. -/
def slice (subject : Operand) (start stop step : Option Operand) : Operand :=
  let last := ([start, stop, step].filterMap id).foldl (fun _ o => o.last) subject.last
  let part (o : Option Operand) (absent : Literal) : Expr :=
    (o.map (·.tree)).getD (.literal absent)
  ⟨.slice last subject.tree (part start (.int 0)) (part stop .none) (part step (.int 1)), last⟩

end Operand

/-! ## §3 Operators -/

/-- What joins two operands. -/
inductive Joint where
  | op (op : BinaryOp)
  | both
  | either
  deriving DecidableEq, Repr, Inhabited

/-- Two operands joined. -/
def Joint.join (left right : Operand) : Joint → Operand
  | .op o => .binary o left right
  | .both => ⟨.both left.tree right.tree, right.last⟩
  | .either => ⟨.either left.tree right.tree, right.last⟩

/-- The levels at which operators bind, from the loosest one. -/
inductive Level where
  | or | and | not | compare | sum | concat | product | power
  deriving DecidableEq, Repr, Inhabited

/-- The next tighter level; none is tighter than a power. -/
def Level.next? : Level → Option Level
  | .or => some .and
  | .and => some .not
  | .not => some .compare
  | .compare => some .sum
  | .sum => some .concat
  | .concat => some .product
  | .product => some .power
  | .power => none

/-- What a token joins at a level. -/
def Level.joint? : Level → Lexeme → Option Joint
  | .or, .word "or" => some .either
  | .and, .word "and" => some .both
  | .compare, .sign .equal => some (.op .equal)
  | .compare, .sign .differs => some (.op .differs)
  | .compare, .sign .below => some (.op .below)
  | .compare, .sign .belowOrEqual => some (.op .belowOrEqual)
  | .compare, .sign .above => some (.op .above)
  | .compare, .sign .aboveOrEqual => some (.op .aboveOrEqual)
  | .compare, .word "in" => some (.op .within)
  | .sum, .sign .plus => some (.op .add)
  | .sum, .sign .minus => some (.op .subtract)
  | .concat, .sign .tilde => some (.op .concat)
  | .product, .sign .star => some (.op .multiply)
  | .product, .sign .slash => some (.op .divide)
  | .product, .sign .slashes => some (.op .divideWhole)
  | .product, .sign .percent => some (.op .remainder)
  | .power, .sign .stars => some (.op .power)
  | _, _ => none

/-- Does the token start the only argument of a test, which may stand without brackets? -/
def startsArgument : Lexeme → Bool
  | .word w => !(["and", "or", "else", "is"].contains w)
  | .text _ | .int _ | .float _ => true
  | .sign s => [Sign.plus, .minus, .openBracket, .openBrace].contains s
  | _ => false

/-- Expressions and statements nest at most this deep. -/
def depthLimit : Nat := 150

namespace Reader

/-- Refuses what nests too deep. -/
def guardDepth (depth : Nat) : Reader Unit :=
  if depth < depthLimit then pure () else fun _ => .error .malformed

/-- The texts that follow one another. -/
def texts : Nat → Reader (List String)
  | 0 => pure []
  | fuel + 1 => do
    match ← peek with
    | some (.text s) =>
      skip
      return s :: (← texts fuel)
    | _ => return []

/-! ## §4 Expressions -/

mutual

/-- An expression; if `choices` is set, it may choose between two others. -/
def expr : Nat → Nat → Bool → Reader Operand
  | 0, _, _ => refuse
  | fuel + 1, depth, choices => do
    if choices then guardDepth depth
    let first ← level fuel (depth + 1) .or
    if choices then chooseAfter fuel (depth + 1) first else return first

/-- The choices that follow an expression. -/
def chooseAfter : Nat → Nat → Operand → Reader Operand
  | 0, _, _ => refuse
  | fuel + 1, depth, yes => do
    if ← acceptWord "if" then
      let condition ← level fuel depth .or
      if ← acceptWord "else" then
        let no ← level fuel depth .or
        let no ← chooseAfter fuel depth no
        chooseAfter fuel depth ⟨.choose condition.tree yes.tree no.tree, no.last⟩
      else
        chooseAfter fuel depth ⟨.choose condition.tree yes.tree .undefined, yes.last⟩
    else return yes

/-- The operands of a level and what joins them. -/
def level : Nat → Nat → Level → Reader Operand
  | 0, _, _ => refuse
  | fuel + 1, depth, .not => do
    if ← acceptWord "not" then
      let operand ← level fuel depth .not
      return ⟨.not operand.tree, operand.last⟩
    else level fuel depth .compare
  | fuel + 1, depth, l => do
    let first ← operand fuel depth l
    chain fuel depth l first

/-- An operand of a level. -/
def operand : Nat → Nat → Level → Reader Operand
  | 0, _, _ => refuse
  | fuel + 1, depth, l =>
    match l.next? with
    | some tighter => level fuel depth tighter
    | none => unary fuel depth

/-- The operators of a level that follow an operand. -/
def chain : Nat → Nat → Level → Operand → Reader Operand
  | 0, _, _, _ => refuse
  | fuel + 1, depth, l, left => do
    match ← peek with
    | none => return left
    | some lexeme =>
      match l.joint? lexeme with
      | some joint =>
        skip
        let right ← operand fuel depth l
        chain fuel depth l (joint.join left right)
      | none =>
        if l = .compare then
          if ← acceptWord "not" then
            expectWord "in"
            let right ← operand fuel depth l
            let found := Operand.binary .within left right
            chain fuel depth l ⟨.not found.tree, found.last⟩
          else return left
        else return left

/-- An operand of all operators, with its filters and tests. -/
def unary : Nat → Nat → Reader Operand
  | 0, _ => refuse
  | fuel + 1, depth => do
    let start ← line
    let subject ← negated fuel depth
    let subject ← lookUps fuel depth start subject
    filters fuel depth subject

/-- A simple expression after any number of minus signs. -/
def negated : Nat → Nat → Reader Operand
  | 0, _ => refuse
  | fuel + 1, depth => do
    let start ← line
    if ← accept .minus then
      let operand ← negated fuel depth
      return ⟨.negate start operand.tree, operand.last⟩
    else simple fuel depth

/-- The look-ups and calls that follow an expression; the part before the next one is on line
`start`. -/
def lookUps : Nat → Nat → Nat → Operand → Reader Operand
  | 0, _, _, _ => refuse
  | fuel + 1, depth, start, subject => do
    let next ← line
    match ← peek with
    | some (.sign .dot) =>
      skip
      let name ← word
      lookUps fuel depth next ⟨.member subject.last subject.tree name, subject.last⟩
    | some (.sign .openBracket) =>
      skip
      let subject ← subscript fuel depth subject
      lookUps fuel depth next subject
    | some (.sign .openParen) =>
      skip
      let args ← arguments fuel depth true false
      lookUps fuel depth next (.call start subject args)
    | _ => return subject

/-- What stands between square brackets after an expression, and the closing bracket. -/
def subscript : Nat → Nat → Operand → Reader Operand
  | 0, _, _ => refuse
  | fuel + 1, depth, subject => do
    let start ← part fuel depth [.colon]
    if ← accept .colon then
      let stop ← part fuel depth [.closeBracket, .colon]
      let step ← if ← accept .colon then part fuel depth [.closeBracket] else pure none
      expect .closeBracket
      return .slice subject start stop step
    else
      expect .closeBracket
      match start with
      | some key => return ⟨.item key.last subject.tree key.tree, key.last⟩
      | none => refuse

/-- An expression unless one of the given signs comes next. -/
def part : Nat → Nat → List Sign → Reader (Option Operand)
  | 0, _, _ => refuse
  | fuel + 1, depth, ends => do
    match ← peek with
    | some (.sign s) =>
      if ends.contains s then return none else return some (← expr fuel depth true)
    | _ => return some (← expr fuel depth true)

/-- The arguments of a call after its opening bracket: the first one or those after it, and whether
a named one came before. -/
def arguments : Nat → Nat → Bool → Bool → Reader (List (ArgKind × Operand))
  | 0, _, _, _ => refuse
  | fuel + 1, depth, first, named => do
    if ← accept .closeParen then return []
    if !first then expect .comma
    -- A comma may stand before the closing bracket.
    if !first && (← accept .closeParen) then return []
    if ← accept .stars then
      let value ← expr fuel depth true
      return (.spreadNamed, value) :: (← arguments fuel depth false true)
    else if ← accept .star then
      let value ← expr fuel depth true
      return (.spread, value) :: (← arguments fuel depth false named)
    else
      let value ← expr fuel depth true
      -- An argument is named if it turns out to be no more than a name and an equals sign follows.
      match value.tree with
      | .name id =>
        if ← accept .assign then
          let value ← expr fuel depth false
          return (.named id, value) :: (← arguments fuel depth false true)
        else if named then refuse
        else return (.plain, value) :: (← arguments fuel depth false false)
      | _ =>
        if named then refuse
        else return (.plain, value) :: (← arguments fuel depth false false)

/-- The filters and tests that follow an expression. -/
def filters : Nat → Nat → Operand → Reader Operand
  | 0, _, _ => refuse
  | fuel + 1, depth, subject => do
    match ← peek with
    | some (.sign .bar) =>
      skip
      let name ← word
      let args ← if ← accept .openParen then arguments fuel depth true false else pure []
      let last := Operand.lastOf subject.last args
      filters fuel depth ⟨.filter last name subject.tree (Operand.trees args), last⟩
    | some (.word "is") =>
      skip
      let negated ← acceptWord "not"
      let name ← word
      let args ← testArguments fuel depth
      let last := Operand.lastOf subject.last args
      let test : Expr := .test last name subject.tree (Operand.trees args)
      filters fuel depth ⟨if negated then .not test else test, last⟩
    | _ => return subject

/-- The arguments of a test: between brackets, or one that stands without them. -/
def testArguments : Nat → Nat → Reader (List (ArgKind × Operand))
  | 0, _ => refuse
  | fuel + 1, depth => do
    if ← accept .openParen then arguments fuel depth true false
    else
      match ← peek with
      | some lexeme =>
        if startsArgument lexeme then
          let start ← line
          let value ← negated fuel depth
          let value ← lookUps fuel depth start value
          return [(.plain, value)]
        else return []
      | none => return []

/-- A constant, a name, or something between brackets. -/
def simple : Nat → Nat → Reader Operand
  | 0, _ => refuse
  | fuel + 1, depth => do
    guardDepth depth
    let start ← line
    match ← peek with
    | some (.word "true") | some (.word "True") => skip; return ⟨.literal (.bool true), start⟩
    | some (.word "false") | some (.word "False") => skip; return ⟨.literal (.bool false), start⟩
    | some (.word "none") | some (.word "None") => skip; return ⟨.literal .none, start⟩
    | some (.word id) => skip; return ⟨.name id, start⟩
    | some (.text _) => return ⟨.literal (.text (String.join (← texts fuel))), start⟩
    | some (.int n) => skip; return ⟨.literal (.int n), start⟩
    | some (.float x) => skip; return ⟨.literal (.float x), start⟩
    | some (.sign .openParen) => skip; parenthesised fuel (depth + 1) start
    | some (.sign .openBracket) =>
      skip
      let found ← items fuel (depth + 1) .closeBracket true
      return ⟨.list (found.map (·.tree)), (found.getLast?.map (·.last)).getD start⟩
    | some (.sign .openBrace) =>
      skip
      let found ← entries fuel (depth + 1) true
      return ⟨.dict (found.map fun (key, value) => (key.tree, value.tree)),
        (found.getLast?.map (·.2.last)).getD start⟩
    | _ => refuse

/-- What stands between round brackets: one expression, or a list if a comma follows it. -/
def parenthesised : Nat → Nat → Nat → Reader Operand
  | 0, _, _ => refuse
  | fuel + 1, depth, start => do
    if ← accept .closeParen then return ⟨.list [], start⟩
    let first ← expr fuel depth true
    if ← sees .comma then
      let more ← items fuel depth .closeParen false
      let all := first :: more
      return ⟨.list (all.map (·.tree)), (all.getLast?.map (·.last)).getD start⟩
    else
      expect .closeParen
      return first

/-- The items of a list up to its closing bracket: the first one or those after it. -/
def items : Nat → Nat → Sign → Bool → Reader (List Operand)
  | 0, _, _, _ => refuse
  | fuel + 1, depth, close, first => do
    if ← accept close then return []
    if !first then expect .comma
    if !first && (← accept close) then return []
    let item ← expr fuel depth true
    return item :: (← items fuel depth close false)

/-- The entries of a dictionary up to its closing brace: the first one or those after it. -/
def entries : Nat → Nat → Bool → Reader (List (Operand × Operand))
  | 0, _, _ => refuse
  | fuel + 1, depth, first => do
    if ← accept .closeBrace then return []
    if !first then expect .comma
    if !first && (← accept .closeBrace) then return []
    let key ← expr fuel depth true
    expect .colon
    let value ← expr fuel depth true
    return (key, value) :: (← entries fuel depth false)

end

/-- Reads with as much fuel as the tokens ahead can ask for: from one token to the next the levels
of operators are passed once. -/
def fuelled (read : Nat → Reader α) : Reader α := fun tokens =>
  read (24 * tokens.length + 24) tokens

/-- An expression inside of `depth` others; if `choices` is set, it may choose between two
others. -/
def expression (depth : Nat) (choices : Bool) : Reader Operand :=
  fuelled fun fuel => expr fuel depth choices

/-- The arguments of a call after its opening bracket. -/
def argumentList (depth : Nat) : Reader (List (ArgKind × Operand)) :=
  fuelled fun fuel => arguments fuel depth true false

end Reader

end SqlWorkflow.Template
