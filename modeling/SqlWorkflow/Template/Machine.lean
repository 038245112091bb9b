import SqlWorkflow.Template.Fault
import SqlWorkflow.Template.Value

/-!
# The state of an evaluation

While a template is evaluated its names are kept in frames, the innermost first.  Values that are
shared and can change, the scopes and what functions keep from around their definition, are in
cells, and so are the loops.  Some of what is written goes aside, to be made a value.  All of this
is the memory of the evaluation, which changes step by step.  What the evaluation does besides is
done by its host, whose state `σ` is passed along.
-/

namespace SqlWorkflow.Template

/-! ## §1 What is written -/

/-- What is written. -/
structure Output where
  written : String := ""
  /-- What is written aside at present, the innermost first; without a text it is dropped. -/
  asides : List (Option String) := []
  deriving Repr, Inhabited

namespace Output

/-- Some more text. -/
def write (text : String) (o : Output) : Output :=
  match o.asides with
  | [] => { o with written := o.written ++ text }
  | some aside :: rest => { o with asides := some (aside ++ text) :: rest }
  | none :: _ => o

/-- Is what is written now dropped? -/
def isHushed (o : Output) : Bool :=
  match o.asides with
  | none :: _ => true
  | _ => false

/-- From here on what is written goes aside, and is kept there or dropped. -/
def turnAside (kept : Bool) (o : Output) : Output :=
  { o with asides := (if kept then some "" else none) :: o.asides }

/-- What was written aside, if it was kept, and the output as it was before. -/
def turnBack (o : Output) : Option String × Output :=
  match o.asides with
  | [] => (none, o)
  | aside :: rest => (aside, { o with asides := rest })

end Output

/-! ## §2 Loops and blocks -/

/-- What is run in each round of a loop, so that the loop can be gone through again. -/
structure Rounds where
  file : String
  target : Target
  body : List Stmt
  deriving Repr, Inhabited

/-- How far a loop has come. -/
structure LoopState where
  /-- The rounds that have begun. -/
  begun : Nat := 0
  length : Nat
  /-- The recursive loops around. -/
  depth : Nat := 0
  previous : Value := .undefined
  current : Value := .undefined
  next : Value
  /-- The values that were last asked about. -/
  seen : Option (List Value) := none
  /-- What is gone through again, if the loop is recursive. -/
  again : Option Rounds := none
  deriving Repr, Inhabited

namespace LoopState

/-- The number of rounds before the present one. -/
def index (l : LoopState) : Nat := l.begun - 1

/-- The loop in its next round. -/
def advance (item next : Value) (l : LoopState) : LoopState :=
  { l with begun := l.begun + 1, previous := l.current, current := item, next }

/-- The attributes that templates see. -/
def toValue (l : LoopState) : Value :=
  .record
    [("depth", .int (l.depth + 1)),
      ("depth0", .int l.depth),
      ("first", .bool (l.index == 0)),
      ("index", .int (l.index + 1)),
      ("index0", .int l.index),
      ("last", .bool (l.index + 1 == l.length)),
      ("length", .int l.length),
      ("nextitem", l.next),
      ("previtem", l.previous),
      ("revindex", .int (l.length - l.index : Nat)),
      ("revindex0", .int (l.length - l.index - 1 : Nat))]
    ("<loop " ++ toString l.index ++ "/" ++ toString l.length ++ ">")

end LoopState

/-- Statements of a template file: all of them or those of a block. -/
structure Layer where
  file : String
  body : List Stmt
  deriving Repr, Inhabited

/-- The layers of a block, from the template that extends others to the one that extends none. -/
structure BlockStack where
  /-- The layers that stand in for the current one, the nearest first. -/
  passed : List Layer := []
  current : Layer
  /-- The layers that the current one stands in for, the nearest first. -/
  left : List Layer := []
  deriving Repr, Inhabited

namespace BlockStack

/-- The block at the layer that the current one stands in for. -/
def up? (b : BlockStack) : Option BlockStack :=
  match b.left with
  | [] => none
  | next :: left => some { passed := b.current :: b.passed, current := next, left }

/-- The block at the layer that stands in for the current one. -/
def down (b : BlockStack) : BlockStack :=
  match b.passed with
  | [] => b
  | next :: passed => { passed, current := next, left := b.current :: b.left }

end BlockStack

/-- The blocks with those of one more template, for which the ones that are there stand in. -/
def addBlocks (file : String) (blocks : Dict BlockStack) (stmts : List Stmt) : Dict BlockStack :=
  (blocksOf stmts).foldl (fun blocks (name, body) =>
    match blocks.get? name with
    | some b => blocks.insert name { b with left := b.left ++ [⟨file, body⟩] }
    | none => blocks.insert name { current := ⟨file, body⟩ }) blocks

/-! ## §3 Memory -/

/-- Where names are looked up that a frame does not bind. -/
inductive Base where
  | none
  /-- The values that the template was given. -/
  | values (entries : List (String × Value))
  | cell (id : Nat)
  deriving Repr, Inhabited

/-- The names of a part of a template. -/
structure Frame where
  locals : Dict Value := {}
  base : Base := .none
  /-- The cell of the functions that are defined in this part. -/
  closure : Option Nat := none
  /-- The loop whose body this is. -/
  loop : Option Nat := none
  /-- Can the loop be seen by its name? -/
  showsLoop : Bool := true
  deriving Repr, Inhabited

/-- What an evaluation knows, besides the state of its host. -/
structure Memory where
  frames : List Frame
  cells : Array (Dict Value) := #[]
  loops : Array LoopState := #[]
  /-- The steps that are left; no limit if absent. -/
  fuel : Option Nat
  /-- What the calls and embedded templates around count for, besides the frames. -/
  depth : Nat := 0
  output : Output := {}
  /-- Are texts escaped when they are written? -/
  escaping : Bool := false
  blocks : Dict BlockStack := {}
  /-- The name of the block that is run. -/
  block : Option String := none
  /-- The names of the templates that extend each other. -/
  loaded : List String := []
  /-- The template that the present one extends, once it is known. -/
  parent : Option Layer := none
  deriving Inhabited

/-- The state of an evaluation. -/
structure Machine (σ : Type) extends Memory where
  host : σ

/-- A step that has to do with the memory alone, and may fail. -/
abbrev Step (α : Type) := StateT Memory (Except Cause) α

/-- An evaluation that may fail. -/
abbrev Eval (σ α : Type) := StateT (Machine σ) (Except Fault) α

namespace Eval

variable {σ α : Type}

/-- A step as an evaluation that leaves the host alone. -/
def ofStep (step : Step α) : Eval σ α := fun m =>
  match step m.toMemory with
  | .ok (a, memory) => .ok (a, { toMemory := memory, host := m.host })
  | .error cause => .error { cause }

instance : MonadLift Step (Eval σ) := ⟨ofStep⟩

/-! ## §4 Failures and limits -/

/-- Fails; the place is added where it is known. -/
def fail (cause : Cause) : Eval σ α := fun _ => .error { cause }

/-- A computation without effects. -/
def lift (x : Except Cause α) : Eval σ α :=
  match x with
  | .ok a => pure a
  | .error cause => fail cause

/-- An evaluation whose failures arise at a place, unless they say otherwise. -/
def located (file : String) (line : Nat) (x : Eval σ α) : Eval σ α := fun m =>
  match x m with
  | .ok result => .ok result
  | .error fault => .error (fault.placed ⟨file, line⟩)

/-- An evaluation of which a failure is another one for what is around. -/
def wrapped (cause : Cause) (x : Eval σ α) : Eval σ α := fun m =>
  match x m with
  | .ok result => .ok result
  | .error fault => .error (fault.around cause)

/-- Uses up some steps. -/
def burn (steps : Nat) : Step Unit := fun m =>
  match m.fuel with
  | none => .ok ((), m)
  | some left =>
    if left < steps then .error .outOfFuel
    else .ok ((), { m with fuel := some (left - steps) })

/-- Frames, calls and embedded templates nest at most this deep. -/
def depthLimit : Nat := 500

/-- Refuses what nests too deep. -/
def checkDepth : Step Unit := do
  let m ← get
  if depthLimit < m.depth + m.frames.length then throw (.invalid "recursion limit exceeded")

/-! ## §5 Cells -/

/-- A new cell. -/
def newCell (contents : Dict Value) : Step Nat := do
  let m ← get
  set { m with cells := m.cells.push contents }
  return m.cells.size

/-- The contents of a cell. -/
def cell (id : Nat) : Step (Dict Value) := do
  return ((← get).cells[id]?).getD {}

/-- Sets a name in a cell. -/
def putCell (id : Nat) (name : String) (value : Value) : Step Unit :=
  modify fun m => { m with cells := m.cells.modify id fun c => c.insert name value }

/-- A new loop. -/
def newLoop (l : LoopState) : Step Nat := do
  let m ← get
  set { m with loops := m.loops.push l }
  return m.loops.size

/-- How far a loop has come. -/
def loop (id : Nat) : Step LoopState := do
  return ((← get).loops[id]?).getD default

/-- Changes a loop. -/
def onLoop (id : Nat) (change : LoopState → LoopState) : Step Unit :=
  modify fun m => { m with loops := m.loops.modify id change }

/-- The value with the present contents of a scope or a loop in place of it. -/
def settle (v : Value) : Step Value :=
  match v with
  | .scope id => do return .ofNamed (← cell id).entries
  | .loop id => do return (← loop id).toValue
  | v => pure v

/-! ## §6 Names -/

/-- What a name denotes below a frame. -/
def inBase (name : String) (cells : Array (Dict Value)) : Base → Option Value
  | .none => none
  | .values entries => lookupEntry name entries
  | .cell id => (cells[id]?).bind (·.get? name)

/-- What a name denotes in a frame. -/
def inFrame (name : String) (cells : Array (Dict Value)) (f : Frame) : Option Value :=
  match f.locals.get? name with
  | some v => some v
  | none =>
    match f.loop with
    | some id =>
      if f.showsLoop && name = "loop" then some (.loop id) else inBase name cells f.base
    | none => inBase name cells f.base

/-- What a name denotes in the innermost frame that knows it. -/
def inFrames (name : String) (cells : Array (Dict Value)) (frames : List Frame) : Option Value :=
  frames.findSome? (inFrame name cells)

/-- The innermost loop. -/
def currentLoop : Step (Option LoopState) := do
  match (← get).frames.findSome? (·.loop) with
  | some id => return some (← loop id)
  | none => return none

/-- Opens a frame. -/
def push (f : Frame) : Step Unit := do
  modify fun m => { m with frames := f :: m.frames }
  checkDepth

/-- Closes the innermost frame, and gives its names. -/
def pop : Step (Dict Value) := do
  let m ← get
  match m.frames with
  | [] => return {}
  | f :: rest =>
    set { m with frames := rest }
    return f.locals

/-- Changes the innermost frame. -/
def onTop (change : Frame → Frame) : Step Unit :=
  modify fun m =>
    match m.frames with
    | [] => m
    | f :: rest => { m with frames := change f :: rest }

/-- Binds a name in the innermost frame; the functions defined there see it too. -/
def store (name : String) (value : Value) : Step Unit := do
  match (← get).frames.head?.bind (·.closure) with
  | some id => putCell id name value
  | none => pure ()
  onTop fun f => { f with locals := f.locals.insert name value }

/-- The cell of the functions of the innermost frame. -/
def closureCell : Step Nat := do
  match (← get).frames.head?.bind (·.closure) with
  | some id => return id
  | none =>
    let id ← newCell {}
    onTop fun f => { f with closure := some id }
    return id

/-- An evaluation in a frame of its own, and the names bound there. -/
def inside (f : Frame) (x : Eval σ α) : Eval σ (α × Dict Value) := do
  push f
  let result ← x
  return (result, ← pop)

/-! ## §7 Output -/

/-- Writes text as it stands. -/
def write (text : String) : Step Unit := modify fun m => { m with output := m.output.write text }

/-- Writes a value, which is escaped where texts are. -/
def emit (v : Value) : Step Unit := do
  let v ← settle v
  write (if (← get).escaping then v.escaped else v.write)

/-- From here on what is written goes aside. -/
def turnAside (kept : Bool) : Step Unit :=
  modify fun m => { m with output := m.output.turnAside kept }

/-- What was written aside, as a value; where texts are escaped it needs no further escape. -/
def turnBack : Step Value := do
  let m ← get
  let (aside, output) := m.output.turnBack
  set { m with output }
  match aside with
  | some text => return if m.escaping then .markup text else .text text
  | none => return .undefined

/-- What an evaluation writes. -/
def capturing (x : Eval σ Unit) : Eval σ Value := do
  turnAside true
  x
  turnBack

/-! ## §8 Other parts and other templates -/

/-- An evaluation with other frames in place of the present ones, which counts as `cost` levels and
knows nothing of the blocks around; what it writes. -/
def apart (frames : List Frame) (cost : Nat) (x : Eval σ Unit) : Eval σ Value := do
  let before ← (get : Step Memory)
  ofStep (set { before with
    frames, depth := before.depth + before.frames.length + cost
    output := {}, blocks := {}, block := none, loaded := [], parent := none })
  checkDepth
  x
  let after ← (get : Step Memory)
  ofStep (set { after with
    frames := before.frames, depth := before.depth, output := before.output
    blocks := before.blocks, block := before.block, loaded := before.loaded
    parent := before.parent })
  return if before.escaping then .markup after.output.written else .text after.output.written

/-- An evaluation of another template in this place, which counts as `cost` levels.  The functions
defined so far in the innermost frame are not seen there, nor are the blocks of this template. -/
def embedded (cost : Nat) (blocks : Dict BlockStack) (x : Eval σ Unit) : Eval σ Unit := do
  let before ← (get : Step Memory)
  onTop fun f => { f with closure := none }
  ofStep (modify fun m => { m with depth := m.depth + cost, blocks, escaping := false })
  checkDepth
  x
  ofStep (modify fun m => { m with
    depth := m.depth - cost, blocks := before.blocks, escaping := before.escaping
    loaded := before.loaded })
  onTop fun f => { f with closure := before.frames.head?.bind (·.closure) }

/-- An evaluation in which texts are escaped or not. -/
def escapingAs (escaping : Bool) (x : Eval σ Unit) : Eval σ Unit := do
  let before := (← (get : Step Memory)).escaping
  ofStep (modify fun m => { m with escaping })
  x
  ofStep (modify fun m => { m with escaping := before })

/-- An evaluation that is not yet known to extend a template. -/
def unextended (x : Eval σ Unit) : Eval σ Unit := do
  let before := (← (get : Step Memory)).parent
  ofStep (modify fun m => { m with parent := none })
  x
  ofStep (modify fun m => { m with parent := before })

/-- The template that the present one extends, which takes its place: what was dropped since is
forgotten. -/
def takeParent : Step (Option Layer) := do
  match (← get).parent with
  | none => return none
  | some layer =>
    let _ ← turnBack
    modify fun m => { m with parent := none }
    return some layer

end Eval

end SqlWorkflow.Template
