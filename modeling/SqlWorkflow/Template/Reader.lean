import SqlWorkflow.Template.Phrase

/-!
# Reading templates

A template is read statement by statement.  A statement with a body goes on up to the tag that
names its end.
-/

namespace SqlWorkflow.Template

namespace Reader

/-! ## §1 Targets and filters -/

/-- Names that nothing can be bound to. -/
def reservedNames : List String :=
  ["true", "True", "false", "False", "none", "None", "loop", "self"]

/-- A name that something is bound to. -/
def newName : Reader String := do
  match ← peek with
  | some (.word w) => if reservedNames.contains w then refuse else word
  | _ => refuse

mutual

/-- Some targets with commas between them; more than one, or a comma after the only one, bind the
items of a list. -/
def targets : Nat → Reader Target
  | 0 => refuse
  | fuel + 1 => do
    let start ← line
    let (found, many) ← targetList fuel true
    match found, many with
    | [target], false => return target
    | found, _ => return .list start found

/-- The first targets or those after a comma, and whether there is a comma between them or after
them. -/
def targetList : Nat → Bool → Reader (List Target × Bool)
  | 0, _ => refuse
  | fuel + 1, first => do
    let ends ← match ← peek with
      | some (.sign .closeParen) | some .closeEmit | some .closeTag | some (.word "in") => pure true
      | _ => pure false
    if ends then return ([], !first)
    let target ←
      if ← accept .openParen then
        let target ← targets fuel
        expect .closeParen
        pure target
      else Target.name <$> newName
    if ← accept .comma then
      let (more, _) ← targetList fuel false
      return (target :: more, true)
    else return ([target], !first)

end

/-- One target or several. -/
def target : Reader Target := fuelled targets

/-- The attributes after a name, each of the value of the one before. -/
def members : Nat → Nat → Expr → Option String → Reader Target
  | 0, _, _, _ => refuse
  | fuel + 1, start, subject, name? => do
    if ← accept .dot then
      let name ← word
      let subject := match name? with
        | some outer => .member start subject outer
        | none => subject
      members fuel start subject (some name)
    else
      match name?, subject with
      | some name, _ => return .member start subject name
      | none, .name id => return .name id
      | none, _ => refuse

/-- A name, or an attribute of what a name denotes. -/
def dottedName : Reader Target := do
  let start ← line
  let id ← newName
  fuelled fun fuel => members fuel start (.name id) none

/-- The filters up to the end of a tag: the first one or those after it. -/
def filterList (depth : Nat) : Nat → Bool → Reader (List FilterCall)
  | 0, _ => refuse
  | fuel + 1, first => do
    if ← seesClose then
      if first then refuse else return []
    if !first then expect .bar
    let start ← line
    let name ← word
    let args ← if ← accept .openParen then argumentList depth else pure []
    let call : FilterCall := ⟨Operand.lastOf start args, name, Operand.trees args⟩
    return call :: (← filterList depth fuel false)

/-- One or more filters up to the end of a tag. -/
def filterCalls (depth : Nat) : Reader (List FilterCall) :=
  fuelled fun fuel => filterList depth fuel true

/-- The parameters of a function after their opening bracket: the first one or those after it, and
whether one before has a fallback; then all have. -/
def paramList (depth : Nat) : Nat → Bool → Bool → Reader (List Param)
  | 0, _, _ => refuse
  | fuel + 1, first, optional => do
    if ← accept .closeParen then return []
    if !first then expect .comma
    if !first && (← accept .closeParen) then return []
    let name ← newName
    if ← accept .assign then
      let fallback ← expression depth true
      return ⟨name, some fallback.tree⟩ :: (← paramList depth fuel false true)
    else if optional then refuse
    else return ⟨name, none⟩ :: (← paramList depth fuel false false)

/-- The bindings of a block up to the end of its tag: the first one or those after it. -/
def bindingList (depth : Nat) : Nat → Bool → Reader (List (Target × Expr))
  | 0, _ => refuse
  | fuel + 1, first => do
    if ← seesClose then return []
    if !first then expect .comma
    let bound ←
      if ← accept .openParen then
        let bound ← target
        expect .closeParen
        pure bound
      else Target.name <$> newName
    expect .assign
    let value ← expression depth true
    return (bound, value.tree) :: (← bindingList depth fuel false)

/-- The imported names up to the end of a tag: the first one or those after it. -/
def importList : Nat → Bool → Reader (List (String × String))
  | 0, _ => refuse
  | fuel + 1, first => do
    if ← seesClose then return []
    if !first then expect .comma
    let name ← newName
    let boundName ← if ← acceptWord "as" then newName else pure name
    return (name, boundName) :: (← importList fuel false)

/-- Words that say with which names an embedded template is run; they change nothing. -/
def contextMark : Reader Unit := do
  if ← acceptWord "with" then expectWord "context"
  else if ← acceptWord "without" then expectWord "context"

/-- A call. -/
def calledExpression (depth : Nat) : Reader Expr := do
  let call ← expression depth true
  if call.tree.isCall then return call.tree else refuse

/-- What stands between the brackets of an expression that is written.  Calls that run a part of
the template write by themselves. -/
def emitted : Expr → Stmt
  | .callName line "loop" [(.plain, items)] => .again line items
  | .callName line "super" [] => .showSuper line
  | .showBlock line name => .showBlock line name
  | value => .emit value

/-! ## §2 Statements -/

mutual

/-- The statements up to a tag that starts with one of the words `ends`, and that word; without
such words, up to the end of the template. -/
def body : Nat → Nat → List String → Reader (List Stmt × String)
  | 0, _, _ => refuse
  | fuel + 1, depth, ends => do
    match ← peek with
    | none => if ends.isEmpty then return ([], "") else refuse
    | some (.raw text) =>
      skip
      let (rest, last) ← body fuel depth ends
      return (.raw text :: rest, last)
    | some .openEmit =>
      skip
      let value ← expression depth true
      closeEmit
      let (rest, last) ← body fuel depth ends
      return (emitted value.tree :: rest, last)
    | some .openTag =>
      skip
      let start ← line
      let keyword ← word
      -- The tag is closed by the statement that the body belongs to.
      if ends.contains keyword then return ([], keyword)
      guardDepth depth
      let stmt ← statement fuel (depth + 1) start keyword
      closeTag
      let (rest, last) ← body fuel depth ends
      return (stmt :: rest, last)
    | some _ => refuse

/-- The statement that starts with a keyword. -/
def statement : Nat → Nat → Nat → String → Reader Stmt
  | 0, _, _, _ => refuse
  | fuel + 1, depth, start, keyword => do
    match keyword with
    | "for" =>
      let bound ← target
      expectWord "in"
      let items ← expression depth false
      let condition ← if ← acceptWord "if" then some <$> expression depth true else pure none
      let recursive ← acceptWord "recursive"
      closeTag
      let (inner, last) ← body fuel depth ["endfor", "else"]
      let otherwise ←
        if last = "else" then
          closeTag
          let (inner, _) ← body fuel depth ["endfor"]
          pure inner
        else pure []
      return .forLoop items.last bound items.tree (condition.map (·.tree)) recursive inner otherwise
    | "if" => conditional fuel depth
    | "with" =>
      let bindings ← fuelled fun fuel => bindingList depth fuel true
      closeTag
      let (inner, _) ← body fuel depth ["endwith"]
      return .withBlock bindings inner
    | "set" =>
      if ← accept .openParen then
        let bound ← target
        expect .closeParen
        expect .assign
        let value ← expression depth true
        return .assign bound value.tree
      else
        let bound ← dottedName
        if ← accept .bar then
          let calls ← filterCalls depth
          closeTag
          let (inner, _) ← body fuel depth ["endset"]
          return .capture bound calls inner
        else if ← seesClose then
          closeTag
          let (inner, _) ← body fuel depth ["endset"]
          return .capture bound [] inner
        else
          expect .assign
          let value ← expression depth true
          return .assign bound value.tree
    | "filter" =>
      let calls ← filterCalls depth
      closeTag
      let (inner, _) ← body fuel depth ["endfilter"]
      return .filtered calls inner
    | "include" =>
      let template ← expression depth true
      contextMark
      if ← acceptWord "ignore" then
        expectWord "missing"
        contextMark
        return .embed start template.tree true
      else return .embed start template.tree false
    | "import" =>
      let template ← expression depth true
      expectWord "as"
      -- Any expression is read here, and what cannot be bound is found out afterwards.
      let aliasStart ← line
      let bound ← expression depth true
      contextMark
      return .importModule start template.tree (.ofExpr aliasStart bound.tree)
    | "from" =>
      let template ← expression depth true
      expectWord "import"
      let names ← fuelled fun fuel => importList fuel true
      return .importNames start template.tree names
    | "macro" =>
      let name ← word
      expect .openParen
      let params ← fuelled fun fuel => paramList depth fuel true false
      closeTag
      let (inner, _) ← body fuel depth ["endmacro"]
      return .define name params inner
    | "call" =>
      let params ←
        if ← accept .openParen then fuelled fun fuel => paramList depth fuel true false
        else pure []
      let call ← calledExpression depth
      closeTag
      let (inner, _) ← body fuel depth ["endcall"]
      return .callWith call params inner
    | "do" => .run <$> calledExpression depth
    | "autoescape" =>
      let setting ← expression depth true
      closeTag
      let (inner, _) ← body fuel depth ["endautoescape"]
      return .escaping setting.last setting.tree inner
    | "block" =>
      let name ← word
      closeTag
      let (inner, _) ← body fuel depth ["endblock"]
      -- The name may be said once more at the end.
      match ← peek with
      | some (.word _) => expectWord name
      | _ => pure ()
      return .block start name inner
    | "extends" =>
      let template ← expression depth true
      return .extend start template.tree
    | _ => refuse

/-- A choice between bodies, after its keyword. -/
def conditional : Nat → Nat → Reader Stmt
  | 0, _ => refuse
  | fuel + 1, depth => do
    let condition ← expression depth true
    closeTag
    let (yes, last) ← body fuel depth ["endif", "else", "elif"]
    if last = "elif" then
      let no ← conditional fuel depth
      return .ifElse condition.tree yes [no]
    else if last = "else" then
      closeTag
      let (no, _) ← body fuel depth ["endif"]
      return .ifElse condition.tree yes no
    else return .ifElse condition.tree yes []

end

end Reader

/-- The statements of a template file.  A template in which something is bound to what nothing can
be bound to is read, but not made ready to be run: that is a panic. -/
def read (file source : String) : Except Fault (List Stmt) :=
  match Reader.fuelled (fun fuel => Reader.body fuel 0 []) (Token.ofTemplate source) with
  | .ok ((stmts, _), _) =>
    if !hasSoundBlocks stmts then .error { cause := .malformed }
    else if (allStmts stmts).any Stmt.bindsNothing then
      .error { cause := .panic "bad assignment target" }
    else .ok stmts
  | .error refusal => .error (refusal.toFault file)

end SqlWorkflow.Template
