import SqlWorkflow.Template.Check
import SqlWorkflow.Template.Closure
import SqlWorkflow.Template.Filter
import SqlWorkflow.Template.Machine
import SqlWorkflow.Template.Reader

/-!
# Evaluating templates

The statements of a template are run one after the other.  The evaluation follows the tree of the
template.  Where it leaves the tree, in a call, in a block, in an embedded template or when it goes
through a loop again, it goes down one level of calls, and there are only so many levels.
-/

namespace SqlWorkflow.Template

/-- How an evaluation leaves the tree that it follows. -/
structure Calls (σ : Type) where
  /-- Calls a value. -/
  call : Value → List Value → Eval σ Value
  /-- Runs the statements of a block or of another template. -/
  run : Layer → Eval σ Unit
  /-- Goes through a loop again, over the items of a value. -/
  again : Rounds → Value → Eval σ Unit

/-- What templates find around them. -/
structure Environment (σ : Type) where
  /-- The names of the functions besides those of every environment. -/
  functions : List String
  /-- Calls one of them. -/
  call : Calls σ → String → List Value → Eval σ Value
  /-- The filters besides those of every environment. -/
  filter? : String → Option (List Value → Eval σ Value)
  /-- Calls a method of an object of the host. -/
  method : Calls σ → Handle → String → List Value → Eval σ Value
  /-- The text of another template, if there is one. -/
  load : String → Except Cause (Option String)

/-- What an evaluation needs besides its state: the environment, the calls of the next level, and
the template file that it is in. -/
structure Scene (σ : Type) where
  env : Environment σ
  calls : Calls σ
  file : String

namespace Scene

variable {σ : Type}

/-- An evaluation that may fail on a line of the template. -/
def onLine {α : Type} (s : Scene σ) (line : Nat) (x : Eval σ α) : Eval σ α :=
  Eval.located s.file line x

end Scene

/-! ## §1 Functions of every environment -/

namespace Builtin

/-- The longest list of numbers. -/
def rangeLimit : Nat := 100000

/-- The numbers from `start` up to, not including, `stop` in steps. -/
def numbers (start stop step : Nat) : List Value :=
  let count := (stop - start + step - 1) / step
  (List.range count).map fun i => .int (start + i * step : Nat)

/-- A list of numbers. -/
def range : Take Value := do
  let first ← Take.indexOf (← Take.required)
  let second ← Take.ifAny Take.indexOf
  let step ← Take.ifAny Take.indexOf
  let (start, stop) := match second with
    | some stop => (first, stop)
    | none => (0, first)
  if step = some 0 then throw (.invalid "cannot create range with step of 0")
  let step := step.getD 1
  if rangeLimit * step < stop - start then throw (.invalid "range has too many elements")
  return .iterator (numbers start stop step)

/-- A dictionary from another and from named arguments. -/
def dict : Take Value := do
  let args ← Take.rest
  let (first, named) : Option Value × List (String × Value) ← match args with
    | [] => pure (none, [])
    | [.arguments named] => pure (none, named)
    | [v] => pure (some v, [])
    | [v, .arguments named] => pure (some v, named)
    | _ => throw (.tooManyArguments none)
  let named := named.map fun (name, value) => (Value.text name, value)
  match first with
  | none | some .undefined => return .ofEntries named
  | some v =>
    match v.entries? with
    | some entries => return .ofEntries (entries ++ named)
    | none => throw .notANumber

/-- The entries that a new scope starts with. -/
def scopeEntries : Take (List (String × Value)) := do
  match ← Take.optional with
  | none => return []
  | some v =>
    match v.entries? with
    | some entries => return entries.filterMap fun (key, value) => key.text?.map (·, value)
    | none =>
      throw (.invalid ("expected object or keyword arguments, got " ++ v.kind.name))

/-- The names of the functions of every environment. -/
def names : List String := ["range", "dict", "namespace"]

/-- Calls one of these functions. -/
def call {σ : Type} (name : String) (args : List Value) : Eval σ Value := do
  if name = "range" then Eval.lift (Take.all range args)
  else if name = "dict" then Eval.lift (Take.all dict args)
  else
    let entries ← Eval.lift (Take.all scopeEntries args)
    let id ← Eval.newCell (Dict.ofList entries)
    return .scope id

end Builtin

section

variable {σ : Type}

/-! ## §2 Filters and tests -/

/-- Splits the named arguments from the others. -/
def splitNamed (args : List Value) : List Value × List (String × Value) :=
  match args.getLast? with
  | some (.arguments named) => (args.dropLast, named)
  | _ => (args, [])

/-- Does a value have a property?  Without a property, does it count as true? -/
def holds (test : Option (Take Bool)) (args : List Value) (v : Value) : Except Cause Bool :=
  match test with
  | some test => Take.all test (v :: args)
  | none => .ok v.isTrue

/-- The filters that call other filters or tests. -/
def callingFilters : List String := ["select", "reject", "selectattr", "rejectattr", "map"]

/-- Is there a filter with a name? -/
def isFilter (env : Environment σ) (name : String) : Bool :=
  (env.filter? name).isSome || (Filter.find? name).isSome || callingFilters.contains name

/-- Is there a test with a name? -/
def isTest (name : String) : Bool :=
  (Check.find? name).isSome || name = "filter" || name = "test"

/-- The test with a name. -/
def test? (env : Environment σ) (name : String) : Option (Take Bool) :=
  match Check.find? name, name with
  | some test, _ => some test
  | none, "filter" => some do return isFilter env (← Take.text)
  | none, "test" => some do return isTest (← Take.text)
  | none, _ => none

/-- The test that an argument names. -/
def testNamed (env : Environment σ) (name : Option String) :
    Except Cause (Option (Take Bool)) :=
  match name with
  | none => .ok none
  | some name =>
    match test? env name with
    | some test => .ok (some test)
    | none => .error .unknownTestValue

/-- The items for which a test gives the wanted answer. -/
def selectItems (env : Environment σ) (wanted byPath : Bool) : Take Value := do
  let v ← Take.required
  let path ← if byPath then some <$> Take.written else pure none
  let name ← Take.writtenIfAny
  let args ← Take.rest
  let test ← testNamed env name
  let items ← v.itemsOf
  let kept ← items.filterMapM fun item => show Except Cause (Option Value) from do
    let subject ← match path with
      | some path => item.pathOf path
      | none => pure item
    return if (← holds test args subject) = wanted then some item else none
  return .list kept

/-- The value of an attribute of every item. -/
def mapPath (v path : Value) (fallback : Value) (args : List Value) : Except Cause Value := do
  if !args.isEmpty then throw (.tooManyArguments none)
  let items ← v.itemsOf
  let found ← items.mapM fun item =>
    let sub := match path with
      | .text p | .markup p => item.pathOf p
      | key => item.itemOf key
    match sub, fallback with
    | .ok .undefined, fallback => .ok fallback
    | .ok v, _ => .ok v
    | .error cause, .undefined => .error cause
    | .error _, fallback => .ok fallback
  return .list found

/-- The results of an evaluation for every item. -/
def mapItems (f : Value → Eval σ Value) : List Value → Eval σ (List Value)
  | [] => pure []
  | v :: rest => do
    let first ← f v
    return first :: (← mapItems f rest)

/-- Applies a filter to a value and arguments.  A filter that names another one in its arguments
has one argument less to pass on. -/
def filterBy (env : Environment σ) : Nat → (unknown : Cause) → String → List Value → Eval σ Value
  | 0, unknown, _, _ => Eval.fail unknown
  | depth + 1, unknown, name, args =>
    match env.filter? name with
    | some filter => filter args
    | none =>
      match Filter.find? name with
      | some filter => Eval.lift (Take.all filter args)
      | none =>
        match name, args with
        | "select", args => Eval.lift (Take.all (selectItems env true false) args)
        | "reject", args => Eval.lift (Take.all (selectItems env false false) args)
        | "selectattr", args => Eval.lift (Take.all (selectItems env true true) args)
        | "rejectattr", args => Eval.lift (Take.all (selectItems env false true) args)
        | "map", v :: rest =>
          let (plain, named) := splitNamed rest
          match lookupEntry "attribute" named with
          | some path =>
            let fallback := (lookupEntry "default" named).getD .undefined
            Eval.lift (mapPath v path fallback plain)
          | none =>
            match plain with
            | first :: more =>
              match first.text? with
              | some inner => do
                let items ← Eval.lift v.itemsOf
                let found ← mapItems
                  (fun item => filterBy env depth .unknownFilterValue inner (item :: more)) items
                return .list found
              | none => Eval.fail (.invalid "filter name must be a string")
            | [] => Eval.fail (.invalid "filter name is required")
        | _, _ => Eval.fail unknown

/-- Applies a filter to a value and arguments. -/
def applyFilter (env : Environment σ) (name : String) (args : List Value) : Eval σ Value :=
  filterBy env args.length (.unknownFilter name) name args

/-- Applies a test to a value and arguments. -/
def applyTest (env : Environment σ) (name : String) (args : List Value) : Eval σ Value :=
  match test? env name with
  | some test => Eval.lift ((Take.all test args).map .bool)
  | none => Eval.fail (.unknownTest name)

/-! ## §3 Expressions -/

/-- The value of a constant. -/
def Literal.value : Literal → Value
  | .none => .none
  | .bool b => .bool b
  | .int n => .int n
  | .float x => .float x
  | .text s => .text s

/-- What a name denotes: something bound, or a function of the environment. -/
def lookUp (env : Environment σ) (name : String) : Step (Option Value) := do
  let m ← get
  match Eval.inFrames name m.cells m.frames with
  | some v => return some v
  | none =>
    if Builtin.names.contains name || env.functions.contains name then
      return some (.function name)
    else return none

/-- An attribute of a value. -/
def memberOf (v : Value) (name : String) : Step Value :=
  match v with
  | .scope id => do return ((← Eval.cell id).get? name).getD .undefined
  | v => do (← Eval.settle v).memberOf name

/-- The item of a value at a key. -/
def itemOf (v key : Value) : Step Value :=
  match v, key.text? with
  | .scope id, some name => do return ((← Eval.cell id).get? name).getD .undefined
  | .scope _, none => pure .undefined
  | v, _ => do (← Eval.settle v).itemOf key

/-- The arguments with the present contents of scopes and loops. -/
def settleAll : List Value → Step (List Value)
  | [] => pure []
  | v :: rest => do
    let first ← Eval.settle v
    return first :: (← settleAll rest)

/-- The argument of a loop whose turn it is. -/
def turnOf (l : LoopState) (args : List Value) : Except Cause Value :=
  if args.isEmpty then
    .error (.panic "attempt to calculate the remainder with a divisor of zero")
  else .ok (args[l.index % args.length]?.getD .undefined)

/-- Calls a method of a loop. -/
def callLoop (id : Nat) (method : String) (args : List Value) : Step Value := do
  let l ← Eval.loop id
  match method with
  | "cycle" => turnOf l args
  | "changed" =>
    let same := match l.seen with
      | some seen => Value.sameItems seen args
      | none => false
    Eval.onLoop id fun l => { l with seen := some args }
    return .bool !same
  | _ => throw (.unknownMethod "loop object" method)

/-- Calls a method of a value: of an object of the host, or what an attribute holds. -/
def callMethod (s : Scene σ) (v : Value) (method : String) (args : List Value) : Eval σ Value :=
  match v with
  | .handle h => do
    let args ← settleAll args
    s.env.method s.calls h method args
  | .scope id => do
    match (← (Eval.cell id : Step (Dict Value))).get? method with
    | some f => s.calls.call f args
    | none => Eval.fail (.unknownMethod v.kind.name method)
  | .loop id => callLoop id method args
  | v =>
    match v.entries?.bind (Value.findEntry (.text method)) with
    | some f => s.calls.call f args
    | none => Eval.fail (.unknownMethod v.kind.name method)

/-- The entries that a dictionary of named arguments adds. -/
def namedEntries (v : Value) : Except Cause (List (String × Value)) :=
  match v with
  | .undefined => .ok []
  | v =>
    match v.entries? with
    | some entries => .ok (entries.filterMap fun (key, value) => key.text?.map (·, value))
    | none =>
      .error (.invalid
        ("attempted to apply keyword arguments from non map (got " ++ v.kind.name ++ ")"))

/-- Are there named arguments? -/
def hasNamed (args : List (ArgKind × Expr)) : Bool :=
  args.any fun
    | (.named _, _) | (.spreadNamed, _) => true
    | _ => false

/-- The arguments of a call: first those without a name, then the named ones, if there are any, as
one value. -/
def gatherArgs (hasNamed : Bool) (evalPlain : Eval σ (List Value))
    (evalNamed : Eval σ (List (String × Value))) : Eval σ (List Value) := do
  let plain ← evalPlain
  if hasNamed then
    let named ← evalNamed
    return plain ++ [.arguments (Dict.ofList named).entries]
  else return plain

/-- Runs a layer of a block, in a frame of its own. -/
def runBlock (s : Scene σ) (layer : Layer) : Eval σ Unit := do
  let _ ← Eval.inside {} (s.calls.run layer)

/-- Runs a block, unless there is a template left that may say otherwise about it. -/
def showBlock (s : Scene σ) (name : String) : Eval σ Unit := do
  let m ← (get : Step Memory)
  if m.parent.isSome || m.output.isHushed then return
  match m.blocks.get? name with
  | none => Eval.fail (.unknownBlock name)
  | some b =>
    Eval.ofStep (modify fun m => { m with block := some name })
    runBlock s b.current
    Eval.ofStep (modify fun after => { after with block := m.block })

/-- The block that is run, at the layer that the current one stands in for. -/
def superBlock : Step (String × BlockStack) := do
  let m ← get
  match m.block with
  | none => throw (.invalid "cannot super outside of block")
  | some name =>
    -- An embedded template has other blocks, but the name of the block is still known.
    match m.blocks.get? name with
    | none => throw (.panic "called `Option::unwrap()` on a `None` value")
    | some b =>
      match b.up? with
      | none => throw (.invalid "no parent block exists")
      | some b => return (name, b)

/-- Runs what the present block stands in for. -/
def showSuper (s : Scene σ) : Eval σ Unit := do
  let (name, b) ← superBlock
  Eval.ofStep (modify fun m => { m with blocks := m.blocks.insert name b })
  Eval.wrapped .insideSuper (runBlock s b.current)
  Eval.ofStep (modify fun m =>
    match m.blocks.get? name with
    | some b => { m with blocks := m.blocks.insert name b.down }
    | none => m)

/-- Goes through the innermost loop again. -/
def goAgain (s : Scene σ) (v : Value) : Eval σ Unit := do
  match ← Eval.currentLoop with
  | none => Eval.fail (.unknownFunction "loop")
  | some l =>
    match l.again with
    | none => Eval.fail (.invalid "cannot recurse outside of recursive loop")
    | some rounds => s.calls.again rounds v

/-- Calls what a name denotes. -/
def callNamed (s : Scene σ) (function : String) (args : List Value) : Eval σ Value := do
  if function = "super" then
    if args.isEmpty then Eval.capturing (showSuper s)
    else Eval.fail (.invalid "super() takes no arguments")
  else
    match ← lookUp s.env function with
    | some (.loop _) =>
      match args with
      | [v] => Eval.capturing (goAgain s v)
      | _ => Eval.fail (.invalid "loop() takes one argument")
    | some f => s.calls.call f args
    | none => Eval.fail (.unknownFunction function)

mutual

/-- The value of an expression. -/
def eval (s : Scene σ) : Expr → Eval σ Value
  | .undefined => pure .undefined
  | .literal value => do
    Eval.burn 1
    return value.value
  | .name id => do
    Eval.burn 1
    return (← (lookUp s.env id : Step (Option Value))).getD .undefined
  | .list items => do
    Eval.burn 1
    return .list (← evalAll s items)
  | .dict entries => do
    Eval.burn 1
    return .ofEntries (← evalEntries s entries)
  | .negate line operand => do
    Eval.burn 1
    let v ← eval s operand
    s.onLine line (Eval.lift v.negate)
  | .not operand => do
    Eval.burn 1
    return .bool !(← eval s operand).isTrue
  | .binary line op left right => do
    Eval.burn 1
    let a ← Eval.settle (← eval s left)
    let b ← Eval.settle (← eval s right)
    s.onLine line (Eval.lift (Value.binary op a b))
  -- The value of these two is that of the operand which decides, and need not be a truth value.
  | .both left right => do
    Eval.burn 1
    let a ← eval s left
    if a.isTrue then eval s right else return a
  | .either left right => do
    Eval.burn 1
    let a ← eval s left
    if a.isTrue then return a else eval s right
  | .choose condition yes no => do
    Eval.burn 1
    if (← eval s condition).isTrue then eval s yes else eval s no
  | .filter line name subject args => do
    Eval.burn 1
    let v ← Eval.settle (← eval s subject)
    let args ← gatherArgs (hasNamed args) (evalPlain s args) (evalNamed s args)
    s.onLine line (applyFilter s.env name (v :: args))
  | .test line name subject args => do
    Eval.burn 1
    let v ← Eval.settle (← eval s subject)
    let args ← gatherArgs (hasNamed args) (evalPlain s args) (evalNamed s args)
    s.onLine line (applyTest s.env name (v :: args))
  | .member line subject name => do
    Eval.burn 1
    let v ← eval s subject
    s.onLine line (Eval.ofStep (memberOf v name))
  | .item line subject key => do
    Eval.burn 1
    let v ← eval s subject
    let key ← eval s key
    s.onLine line (Eval.ofStep (itemOf v key))
  | .slice line subject start stop step => do
    Eval.burn 1
    let v ← Eval.settle (← eval s subject)
    let start ← eval s start
    let stop ← eval s stop
    let step ← eval s step
    s.onLine line (Eval.lift (v.slice start stop step))
  -- The arguments are evaluated before the function is looked up.
  | .callName line function args => do
    Eval.burn 1
    let args ← gatherArgs (hasNamed args) (evalPlain s args) (evalNamed s args)
    s.onLine line (callNamed s function args)
  | .callMethod line subject method args => do
    Eval.burn 1
    let v ← eval s subject
    let args ← gatherArgs (hasNamed args) (evalPlain s args) (evalNamed s args)
    s.onLine line (callMethod s v method args)
  | .callValue line subject args => do
    Eval.burn 1
    let v ← eval s subject
    let args ← gatherArgs (hasNamed args) (evalPlain s args) (evalNamed s args)
    s.onLine line (s.calls.call v args)
  | .showBlock line name => do
    Eval.burn 1
    s.onLine line (Eval.capturing (showBlock s name))

/-- The values of some expressions. -/
def evalAll (s : Scene σ) : List Expr → Eval σ (List Value)
  | [] => pure []
  | e :: rest => do
    let first ← eval s e
    return first :: (← evalAll s rest)

/-- The keys and values of some entries. -/
def evalEntries (s : Scene σ) : List (Expr × Expr) → Eval σ (List (Value × Value))
  | [] => pure []
  | (key, value) :: rest => do
    let key ← eval s key
    let value ← eval s value
    return (key, value) :: (← evalEntries s rest)

/-- The arguments without a name. -/
def evalPlain (s : Scene σ) : List (ArgKind × Expr) → Eval σ (List Value)
  | [] => pure []
  | (.plain, e) :: rest => do
    let first ← eval s e
    return first :: (← evalPlain s rest)
  | (.spread, e) :: rest => do
    let items ← Eval.lift (← eval s e).itemsOf
    return items ++ (← evalPlain s rest)
  | _ :: rest => evalPlain s rest

/-- The named arguments. -/
def evalNamed (s : Scene σ) : List (ArgKind × Expr) → Eval σ (List (String × Value))
  | [] => pure []
  | (.named name, e) :: rest => do
    let first ← eval s e
    return (name, first) :: (← evalNamed s rest)
  | (.spreadNamed, e) :: rest => do
    let entries ← Eval.lift (namedEntries (← Eval.settle (← eval s e)))
    return entries ++ (← evalNamed s rest)
  | _ :: rest => evalNamed s rest

end

/-- The arguments of a call. -/
def evalArgs (s : Scene σ) (args : List (ArgKind × Expr)) : Eval σ (List Value) :=
  gatherArgs (hasNamed args) (evalPlain s args) (evalNamed s args)

/-! ## §4 Statements -/

mutual

/-- Binds a target to a value. -/
def bindTarget (s : Scene σ) : Target → Value → Eval σ Unit
  | .name id, v => Eval.ofStep (Eval.store id v)
  | .member line subject name, v => do
    match ← eval s subject with
    | .scope id => Eval.ofStep (Eval.putCell id name v)
    | other =>
      s.onLine line (Eval.fail
        (.invalid ("can only assign to namespaces, not " ++ other.kind.name)))
  | .list line targets, v => do
    match v.items? with
    | some items => bindTargets s line targets.length items.length targets items
    | none => s.onLine line (Eval.fail (.cannotUnpack "value is not iterable"))
  | .impossible, _ => Eval.fail (.panic "bad assignment target")

/-- Binds targets to values, of which there must be as many. -/
def bindTargets (s : Scene σ) (line expected found : Nat) :
    List Target → List Value → Eval σ Unit
  | [], [] => pure ()
  | target :: targets, v :: vs => do
    if expected = found then
      bindTarget s target v
      bindTargets s line expected found targets vs
    else
      s.onLine line (Eval.fail (.cannotUnpack ("sequence of wrong length (expected " ++
        toString expected ++ ", got " ++ toString found ++ ")")))
  | _, _ =>
    s.onLine line (Eval.fail (.cannotUnpack ("sequence of wrong length (expected " ++
      toString expected ++ ", got " ++ toString found ++ ")")))

end

/-- Applies filters one after the other. -/
def applyFilters (s : Scene σ) : Value → List FilterCall → Eval σ Value
  | v, [] => pure v
  | v, call :: rest => do
    Eval.burn 1
    let args ← evalArgs s call.args
    let v ← s.onLine call.line (applyFilter s.env call.name (v :: args))
    applyFilters s v rest

/-- Runs the body of a loop for every item. -/
def loopOver (id : Nat) (round : Value → Eval σ Unit) : List Value → Eval σ Unit
  | [] => Eval.ofStep (Eval.onLoop id (LoopState.advance .undefined .undefined))
  | v :: rest => do
    Eval.burn 3
    Eval.onLoop id (LoopState.advance v (rest.head?.getD .undefined))
    round v
    loopOver id round rest

/-- The recursive loops around, for a loop that starts now. -/
def depthOfLoop : Step Nat := do
  match ← Eval.currentLoop with
  | some l => return if l.again.isSome then l.depth + 1 else 0
  | none => return 0

/-- Goes through a loop.  One frame serves all rounds: what a round assigns is still there in the
next one. -/
def goThrough (again : Option Rounds) (round : Value → Eval σ Unit) (items : List Value) :
    Eval σ Unit := do
  let depth ← depthOfLoop
  let id ← Eval.newLoop
    { length := items.length, depth, next := items.head?.getD .undefined, again }
  let _ ← Eval.inside { loop := some id } (loopOver id round items)

/-- The items that satisfy a condition. -/
def keepItems (test : Value → Eval σ Bool) : List Value → Eval σ (List Value)
  | [] => pure []
  | v :: rest => do
    Eval.burn 3
    let keep ← test v
    let more ← keepItems test rest
    return if keep then v :: more else more

/-- The items that a loop goes through.  The condition is asked in a loop of its own. -/
def loopItems (s : Scene σ) (line : Nat) (target : Target) (items : Expr)
    (condition : Option Expr) : Eval σ (List Value) := do
  let v ← eval s items
  let v ← Eval.settle v
  let items ← s.onLine line (Eval.lift v.itemsOf)
  match condition with
  | none => return items
  | some condition =>
    let id ← Eval.newLoop { length := items.length, next := .undefined }
    let (kept, _) ← Eval.inside { loop := some id, showsLoop := false } <| keepItems (fun v => do
      bindTarget s target v
      return (← eval s condition).isTrue) items
    return kept

/-- The templates that a value names: those in a list, or the one named by the value itself. -/
def templateNames (v : Value) : List Value :=
  match v with
  | .undefined | .none | .bool _ | .int _ | .float _ | .text _ | .markup _ => [v]
  | v => v.items?.getD []

/-- The statements of another template, if it exists. -/
def loadStmts (s : Scene σ) (file : String) : Eval σ (Option (List Stmt)) := do
  match ← Eval.lift (s.env.load file) with
  | none => return none
  | some source =>
    match read file source with
    | .error fault => throw fault
    | .ok stmts => return some stmts

/-- Runs the first template of some names that exists; was there one? -/
def embedFirst (s : Scene σ) : List Value → Eval σ Bool
  | [] => pure false
  | name :: rest => do
    match name.text? with
    | none => Eval.fail (.invalid "template name was not a string")
    | some file =>
      match ← loadStmts s file with
      | none => embedFirst s rest
      | some stmts =>
        Eval.embedded 10 (addBlocks file {} stmts)
          (Eval.wrapped (.insideTemplate file) (s.calls.run ⟨file, stmts⟩))
        return true

/-- Runs another template in this place. -/
def embedTemplate (s : Scene σ) (line : Nat) (template : Expr) (optional : Bool) :
    Eval σ Unit := do
  let v ← eval s template
  let v ← Eval.settle v
  let names := templateNames v
  let found ← s.onLine line (embedFirst s names)
  if found || optional || names.isEmpty then return
  s.onLine line <| Eval.fail <| match names with
    | [name] => .templateNotFound name.write
    | names => .noneOfTemplates (Value.list names).write

/-- Leaves it to the template with a name to write what there is to write. -/
def extendTemplate (s : Scene σ) (v : Value) : Eval σ Unit := do
  let m ← (get : Step Memory)
  if m.parent.isSome then
    Eval.fail (.invalid "tried to extend a second time in a template")
  match v.text? with
  | none => Eval.fail (.invalid "template name was not a string")
  | some file =>
    if m.loaded.contains file then
      Eval.fail (.invalid ("cycle in template inheritance. " ++ Text.displayQuoted file ++
        " was referenced more than once"))
    match ← loadStmts s file with
    | none => Eval.fail (.noSuchTemplate file)
    | some stmts =>
      Eval.ofStep (modify fun m => { m with
        loaded := file :: m.loaded
        blocks := addBlocks file m.blocks stmts
        parent := some ⟨file, stmts⟩ })
      Eval.turnAside false

/-- The values of some names, where nothing is bound to a name it is undefined. -/
def lookUpAll (env : Environment σ) : List String → Step (List Value)
  | [] => pure []
  | name :: rest => do
    let v := (← lookUp env name).getD .undefined
    return v :: (← lookUpAll env rest)

/-- Binds some names. -/
def storeAll : List (String × Value) → Step Unit
  | [] => pure ()
  | (name, v) :: rest => do
    Eval.store name v
    storeAll rest

/-- Keeps the values of free names in a cell, unless it has them. -/
def enclose (env : Environment σ) (cell : Nat) : List String → Step Unit
  | [] => pure ()
  | name :: rest => do
    if ((← Eval.cell cell).get? name).isNone then
      Eval.putCell cell name ((← lookUp env name).getD .undefined)
    enclose env cell rest

/-- The name by which a function asks for the function that a call passes along. -/
def callerName : String := "caller"

/-- A function of a template.  What a call passes along is not kept from around it. -/
def makeDefinition (s : Scene σ) (name : String) (params : List Param) (body : List Stmt) :
    Step Value := do
  let free := freeNames params body
  let cell ← Eval.closureCell
  enclose s.env cell (free.filter fun n => n != callerName)
  return .definition {
    file := s.file, name, params, body, cell, usesCaller := free.contains callerName }

/-- The value of a call that also passes a function along. -/
def evalPassing (s : Scene σ) (params : List Param) (body : List Stmt) (call : Expr) :
    Eval σ Value :=
  let argsOf (args : List (ArgKind × Expr)) : Eval σ (List Value) :=
    gatherArgs true (evalPlain s args) do
      let named ← evalNamed s args
      let caller ← makeDefinition s callerName params body
      return named ++ [(callerName, caller)]
  match call with
  | .callName line function args => do
    Eval.burn 1
    let args ← argsOf args
    s.onLine line (callNamed s function args)
  | .callMethod line subject method args => do
    Eval.burn 1
    let v ← eval s subject
    let args ← argsOf args
    s.onLine line (callMethod s v method args)
  | .callValue line subject args => do
    Eval.burn 1
    let v ← eval s subject
    let args ← argsOf args
    s.onLine line (s.calls.call v args)
  | call => eval s call

/-- Is what is written escaped after a setting? -/
def escapingOf (setting : Value) : Except Cause Bool :=
  match setting.text?, setting.same (.bool true) with
  | some "html", _ => .ok true
  | some "none", _ => .ok false
  | some _, _ => .error (.invalid "invalid value to autoescape tag")
  | none, isSet => .ok isSet

mutual

/-- Runs a statement. -/
def exec (s : Scene σ) : Stmt → Eval σ Unit
  | .raw text => do
    Eval.burn 1
    Eval.write text
  | .emit value => do
    Eval.burn 1
    let v ← eval s value
    Eval.emit v
  | .forLoop line target items condition recursive body otherwise => do
    let items ← loopItems s line target items condition
    let again : Option Rounds := if recursive then some ⟨s.file, target, body⟩ else none
    goThrough again (fun v => do
      bindTarget s target v
      execAll s body) items
    if items.isEmpty then execAll s otherwise
  | .again line items => do
    Eval.burn 1
    let v ← eval s items
    s.onLine line (goAgain s v)
  | .ifElse condition yes no => do
    Eval.burn 1
    if (← eval s condition).isTrue then execAll s yes else execAll s no
  | .withBlock bindings body => do
    let _ ← Eval.inside {} do
      execBindings s bindings
      execAll s body
  | .assign target value => do
    Eval.burn 1
    let v ← eval s value
    bindTarget s target v
  | .capture target filters body => do
    let text ← Eval.capturing (execAll s body)
    let v ← applyFilters s text filters
    bindTarget s target v
  | .filtered filters body => do
    let text ← Eval.capturing (execAll s body)
    let v ← applyFilters s text filters
    Eval.emit v
  | .embed line template optional => embedTemplate s line template optional
  | .importModule line template target => do
    Eval.turnAside true
    let ((), names) ← Eval.inside {} (embedTemplate s line template false)
    let text ← Eval.turnBack
    bindTarget s target (.record names.entries text.write)
  | .importNames line template names => do
    Eval.turnAside false
    let (values, _) ← Eval.inside {} do
      embedTemplate s line template false
      lookUpAll s.env (names.map (·.1))
    -- From last to first, so that of a name that is bound twice the first value counts.
    storeAll ((names.map (·.2)).zip values).reverse
    let _ ← Eval.turnBack
  | .define name params body => do
    Eval.burn 1
    let f ← makeDefinition s name params body
    Eval.store name f
  | .callWith call params body => do
    let v ← evalPassing s params body call
    Eval.emit v
  | .run call => do
    let _ ← eval s call
  | .escaping line setting body => do
    Eval.burn 1
    let v ← eval s setting
    let escaping ← s.onLine line (Eval.lift (escapingOf v))
    Eval.escapingAs escaping (execAll s body)
  | .block line name _ | .showBlock line name => do
    Eval.burn 1
    s.onLine line (showBlock s name)
  | .showSuper line => do
    Eval.burn 1
    s.onLine line (showSuper s)
  | .extend line template => do
    let v ← eval s template
    s.onLine line (extendTemplate s v)

/-- Runs some statements. -/
def execAll (s : Scene σ) : List Stmt → Eval σ Unit
  | [] => pure ()
  | stmt :: rest => do
    exec s stmt
    execAll s rest

/-- Binds the names of a block. -/
def execBindings (s : Scene σ) : List (Target × Expr) → Eval σ Unit
  | [] => pure ()
  | (target, value) :: rest => do
    let v ← eval s value
    bindTarget s target v
    execBindings s rest

end

/-! ## §5 Calls -/

/-- The values of parameters for the arguments of a call. -/
def matchParams (named : List (String × Value)) :
    List Param → List Value → Except Cause (List Value)
  | [], [] => .ok []
  | [], _ :: _ => .error (.tooManyArguments none)
  | p :: params, [] => do
    let v := (lookupEntry p.name named).getD .undefined
    return v :: (← matchParams named params [])
  | p :: params, v :: vs => do
    if (lookupEntry p.name named).isSome then
      throw (.tooManyArguments (some ("duplicate argument `" ++ p.name ++ "`")))
    return v :: (← matchParams named params vs)

/-- Refuses named arguments other than those with some names. -/
def refuseUnknown (names : List String) (named : List (String × Value)) : Except Cause Unit :=
  match named.find? fun entry => !names.contains entry.1 with
  | some (name, _) =>
    .error (.tooManyArguments (some ("unknown keyword argument `" ++ name ++ "`")))
  | none => .ok ()

/-- Binds the parameters of a function, the last one first; a missing one gets its fallback. -/
def bindParams (s : Scene σ) : List (Param × Value) → Eval σ Unit
  | [] => pure ()
  | (p, v) :: rest => do
    bindParams s rest
    match v, p.fallback with
    | .undefined, some fallback => do
      let v ← eval s fallback
      Eval.store p.name v
    | v, _ => Eval.store p.name v

/-- Calls a function that a template defines. -/
def callDefinition (env : Environment σ) (calls : Calls σ) (d : Definition) (args : List Value) :
    Eval σ Value := do
  let (plain, named) := splitNamed args
  if d.params.length < plain.length then Eval.fail (.tooManyArguments none)
  let values ← Eval.lift (matchParams named d.params plain)
  let caller := if d.usesCaller then [callerName] else []
  Eval.lift (refuseUnknown (d.params.map (·.name) ++ caller) named)
  let scene : Scene σ := { env, calls, file := d.file }
  let outermost := ((← (get : Step Memory)).frames.getLast?.map (·.base)).getD .none
  Eval.apart [{ base := .cell d.cell }, { base := outermost }] 4 do
    storeAll (caller.map fun name => (name, (lookupEntry name named).getD .undefined))
    bindParams scene (d.params.zip values)
    execAll scene d.body

/-- Calls a value. -/
def callAny (env : Environment σ) (calls : Calls σ) (f : Value) (args : List Value) :
    Eval σ Value :=
  match f with
  | .definition d => callDefinition env calls d args
  | .function name => do
    let args ← settleAll args
    if Builtin.names.contains name then Builtin.call name args else env.call calls name args
  | .loop _ => Eval.fail .loopRenamed
  | .undefined | .none | .bool _ | .int _ | .float _ | .text _ | .markup _ =>
    Eval.fail (.invalid ("value of type " ++ f.kind.name ++ " is not callable"))
  | _ => Eval.fail (.invalid "object is not callable")

/-- Runs a template or a block, and then those that it extends, one after the other. -/
def runChain (env : Environment σ) (calls : Calls σ) : Nat → Layer → Eval σ Unit
  | 0, _ => Eval.fail (.invalid "recursion limit exceeded")
  | more + 1, layer => do
    execAll { env, calls, file := layer.file } layer.body
    match ← Eval.takeParent with
    | none => return
    | some parent => runChain env calls more parent

/-- So many templates may extend each other: more than there are steps to run them. -/
def chainLimit : Nat := Nat.pow 2 32

/-- Runs a template or a block. -/
def runLayer (env : Environment σ) (calls : Calls σ) (layer : Layer) : Eval σ Unit :=
  Eval.unextended (runChain env calls chainLimit layer)

/-- Goes through a loop again. -/
def runAgain (env : Environment σ) (calls : Calls σ) (rounds : Rounds) (v : Value) :
    Eval σ Unit := do
  let scene : Scene σ := { env, calls, file := rounds.file }
  let v ← Eval.settle v
  let items ← Eval.lift v.itemsOf
  goThrough (some rounds) (fun v => do
    bindTarget scene rounds.target v
    execAll scene rounds.body) items

/-- The calls of some levels.  Every call counts against the depth limit, which is reached before
the levels are used up. -/
def callsOf (env : Environment σ) : Nat → Calls σ
  | 0 =>
    { call := fun _ _ => Eval.fail (.invalid "recursion limit exceeded")
      run := fun _ => Eval.fail (.invalid "recursion limit exceeded")
      again := fun _ _ => Eval.fail (.invalid "recursion limit exceeded") }
  | levels + 1 =>
    let calls := callsOf env levels
    { call := callAny env calls
      run := runLayer env calls
      again := runAgain env calls }

/-- Runs a template file with some values, and gives what it writes and the state of the host. -/
def render (env : Environment σ) (fuel : Option Nat) (file source : String)
    (values : List (String × Value)) (host : σ) : Except Fault (String × σ) := do
  let load (name : String) := if name = file then .ok (some source) else env.load name
  let env := { env with load }
  let stmts ← read file source
  let start : Machine σ := {
    frames := [{ base := .values values }], fuel, host
    blocks := addBlocks file {} stmts, loaded := [file] }
  let ((), m) ← runLayer env (callsOf env (2 * Eval.depthLimit)) ⟨file, stmts⟩ start
  return (m.output.written, m.host)

end

end SqlWorkflow.Template
