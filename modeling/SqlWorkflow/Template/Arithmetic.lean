import SqlWorkflow.Decimal.Numeral
import SqlWorkflow.Decimal.Shortest
import SqlWorkflow.Template.Fault
import SqlWorkflow.Template.Value

/-!
# Operations on values

Whole numbers are computed exactly within 128 bits; next to a float everything is a float.  Whole
division and remainder go by a remainder that is never negative.
-/

namespace SqlWorkflow.Template

namespace BinaryOp

/-- How an operation is written. -/
def sign : BinaryOp → String
  | .equal => "=="
  | .differs => "!="
  | .below => "<"
  | .belowOrEqual => "<="
  | .above => ">"
  | .aboveOrEqual => ">="
  | .add => "+"
  | .subtract => "-"
  | .multiply => "*"
  | .divide => "/"
  | .divideWhole => "//"
  | .remainder => "%"
  | .power => "**"
  | .concat => "~"
  | .within => "in"

end BinaryOp

namespace Value

/-! ## §1 Floats -/

/-- The remainder of `a` by `b` with the sign of `a`.  Both are multiples of the smaller of their
units, in which the remainder is computed exactly. -/
def floatRemainder (a b : Float) : Float :=
  if a.isNaN || b.isNaN || a.isInf || b == 0.0 then 0.0 / 0.0
  else if b.isInf then a
  else
    let x := Decimal.Binary.ofBits a.toBits
    let y := Decimal.Binary.ofBits b.toBits
    let unit := min x.exponent y.exponent
    let m := x.mantissa * Nat.pow 2 (x.exponent - unit).toNat
    let n := y.mantissa * Nat.pow 2 (y.exponent - unit).toNat
    let r := Float.scaleB (Float.ofNat (m % n)) unit
    if a.toBits.toNat < Nat.pow 2 63 then r else -r

/-- The float without its places. -/
def truncate (x : Float) : Float := if x < 0.0 then x.ceil else x.floor

/-- The whole quotient of two floats that leaves no negative remainder. -/
def floatQuotient (a b : Float) : Float :=
  let q := truncate (a / b)
  if floatRemainder a b < 0.0 then if b > 0.0 then q - 1.0 else q + 1.0 else q

/-! ## §2 Arithmetic -/

/-- The failure of an operation whose result is out of range or does not exist. -/
def failed (op : BinaryOp) (a b : Value) : Cause :=
  .invalid ("unable to calculate " ++ a.write ++ " " ++ op.sign ++ " " ++ b.write)

/-- The failure of an operation on values that it does not apply to. -/
def impossible (op : BinaryOp) (a b : Value) : Cause :=
  .invalid ("tried to use " ++ op.sign ++ " operator on unsupported types " ++ a.kind.name ++
    " and " ++ b.kind.name)

/-- A whole number of at most 128 bits. -/
def wide (cause : Cause) (n : Int) : Except Cause Value :=
  if isWide n then .ok (.int n) else .error cause

/-- An operation on two numbers. -/
def arith (op : BinaryOp) (ints : Int → Int → Except Cause Value) (floats : Float → Float → Float)
    (a b : Value) : Except Cause Value :=
  match pair? a b with
  | some (.ints x y) => ints x y
  | some (.floats x y) => .ok (.float (floats x y))
  | _ => .error (impossible op a b)

/-- The items of a list or iterator. -/
def sequence? : Value → Option (List Value)
  | .list items | .iterator items => some items
  | .group key items => some [key, .iterator items]
  | _ => .none

/-- The sum of two numbers; texts and lists are joined. -/
def add (a b : Value) : Except Cause Value :=
  match a.sequence?, b.sequence? with
  | some xs, some ys => .ok (.iterator (xs ++ ys))
  | _, _ =>
    match pair? a b with
    | some (.texts x y) => .ok (.text (x ++ y))
    | _ => arith .add (fun x y => wide (failed .add a b) (x + y)) (· + ·) a b

/-- How often a text or list is repeated. -/
def count? (v : Value) : Option Nat :=
  v.int?.bind fun n => if 0 ≤ n ∧ n < Nat.pow 2 64 then some n.toNat else .none

/-- The text several times. -/
def repeatText (s : String) (times : Value) : Except Cause Value :=
  match times.count? with
  | some n => .ok (.text (String.join (List.replicate n s)))
  | .none => .error (.invalid "strings can only be multiplied with integers")

/-- The list several times. -/
def repeatItems (items : List Value) (times : Value) : Except Cause Value :=
  match times.count? with
  | some n => .ok (.iterator (List.replicate n items).flatten)
  | .none => .error (.invalid "sequences and iterables can only be multiplied with integers")

/-- The product of two numbers; a text or list is repeated. -/
def multiply (a b : Value) : Except Cause Value :=
  match a, b with
  | .text s, n | .markup s, n => repeatText s n
  | n, .text s | n, .markup s => repeatText s n
  | a, b =>
    match a.sequence?, b.sequence? with
    | some items, _ => repeatItems items b
    | .none, some items => repeatItems items a
    | .none, .none =>
      arith .multiply (fun x y => wide (failed .multiply a b) (x * y)) (· * ·) a b

/-- The quotient of two numbers as a float. -/
def divide (a b : Value) : Except Cause Value :=
  match a.float?, b.float? with
  | some x, some y => .ok (.float (x / y))
  | _, _ => .error (impossible .divide a b)

/-- The whole quotient of two numbers. -/
def divideWhole (a b : Value) : Except Cause Value :=
  arith .divideWhole
    (fun x y => if y = 0 then .error (failed .divideWhole a b)
      else wide (failed .divideWhole a b) (x / y))
    floatQuotient a b

/-- What a whole division leaves. -/
def remainder (a b : Value) : Except Cause Value :=
  arith .remainder
    (fun x y => if y = 0 then .error (failed .remainder a b)
      else wide (failed .remainder a b) (x % y))
    floatRemainder a b

/-- A whole number to the power of another, unless the result needs far more than 128 bits. -/
def intPower? (x : Int) (y : Nat) : Option Int :=
  if y = 0 then some 1
  else if x.natAbs ≤ 1 then some (if y % 2 = 0 then x * x else x)
  else if y < 128 then some (Int.pow x y)
  else .none

/-- A number to the power of another. -/
def power (a b : Value) : Except Cause Value :=
  arith .power
    (fun x y =>
      match if 0 ≤ y ∧ y < Nat.pow 2 32 then intPower? x y.toNat else .none with
      | some n => wide (failed .power a b) n
      | .none => .error (failed .power a b))
    (fun x y => x ^ y) a b

/-- The number with the opposite sign. -/
def negate (v : Value) : Except Cause Value :=
  match v with
  | .float x => .ok (.float (-x))
  | .int n => wide (.invalid "overflow") (-n)
  | _ => .error .notANumber

/-! ## §3 Comparison and membership -/

/-- Is the value a member of the container? -/
def within (v container : Value) : Except Cause Bool :=
  match container with
  | .undefined => .ok false
  | .text s | .markup s => .ok (Text.occursIn v.write.toList s.toList)
  | .list items | .iterator items => .ok (items.any (same · v))
  | .group key items => .ok (key.same v || (Value.iterator items).same v)
  | .function _ | .handle _ => .ok false
  | container =>
    match container.entries? with
    | some entries => .ok (findEntry v entries).isSome
    | .none => .error (.invalid "cannot perform a containment check on this value")

/-- The result of an operation on two values. -/
def binary (op : BinaryOp) (a b : Value) : Except Cause Value :=
  match op with
  | .equal => .ok (.bool (a.same b))
  | .differs => .ok (.bool (!a.same b))
  | .below => .ok (.bool (a.order b == .lt))
  | .belowOrEqual => .ok (.bool (a.order b != .gt))
  | .above => .ok (.bool (a.order b == .gt))
  | .aboveOrEqual => .ok (.bool (a.order b != .lt))
  | .add => add a b
  | .subtract => arith .subtract (fun x y => wide (failed .subtract a b) (x - y)) (· - ·) a b
  | .multiply => multiply a b
  | .divide => divide a b
  | .divideWhole => divideWhole a b
  | .remainder => remainder a b
  | .power => power a b
  | .concat => .ok (.text (a.write ++ b.write))
  | .within => (within a b).map .bool

/-! ## §4 Slices -/

/-- A bound of a slice; an index from the end that is too great stands for the start. -/
def bound (length : Nat) (index : Int) : Nat :=
  if 0 ≤ index then index.toNat else (length + index).toNat

/-- Every item whose place, counted from the first one, is a multiple of `step`. -/
def everyNth {α : Type} (step : Nat) (items : List α) : List α :=
  (items.zipIdx.filter fun (_, i) => i % step == 0).map (·.1)

/-- The items from `start` up to `stop` in steps; backwards if the step is negative. -/
def sliceItems {α : Type} (items : List α) (start : Int) (stop : Option Int) (step : Int) :
    List α :=
  let length := items.length
  if 0 < step then
    let first := bound length start
    let last := (stop.map (bound length)).getD length
    everyNth step.toNat ((items.take last).drop first)
  else
    -- The start of a slice that is not given is zero, which going backwards means the last item.
    let first := if start = 0 ∨ (length : Int) ≤ start then length - 1 else bound length start
    let last := stop.map (bound length)
    let kept := items.take (first + 1)
    let kept := match last with
      | some last => kept.drop (last + 1)
      | .none => kept
    everyNth step.natAbs kept.reverse

/-- A bound of a slice as a whole number. -/
def boundOf (v : Value) : Except Cause Int :=
  match v.word? with
  | some n => .ok n
  | .none => .error (.invalid ("cannot convert " ++ v.kind.name ++ " to i64"))

/-- A part of a text or list. -/
def slice (v start stop step : Value) : Except Cause Value := do
  let start ← match start with
    | .none => pure 0
    | start => start.boundOf
  let stop ← match stop with
    | .none => pure Option.none
    | stop => some <$> stop.boundOf
  let step ← match step with
    | .none => pure 1
    | step => step.boundOf
  if step = 0 then throw (.invalid "cannot slice by step size of 0")
  match v with
  | .text s | .markup s => return .text (String.ofList (sliceItems s.toList start stop step))
  | .undefined | .none => return .list []
  | .list items | .iterator items => return .iterator (sliceItems items start stop step)
  | .group key items => return .iterator (sliceItems [key, .iterator items] start stop step)
  | v => throw (.invalid ("value of type " ++ v.kind.name ++ " cannot be sliced"))

/-! ## §5 Look-ups -/

/-- An attribute of a value; looking into nothing fails. -/
def memberOf (v : Value) (name : String) : Except Cause Value :=
  match v with
  | .undefined => .error (.undefined .none)
  | v => .ok ((v.find? (.text name)).getD .undefined)

/-- The item of a value at a key; looking into nothing fails. -/
def itemOf (v key : Value) : Except Cause Value :=
  match v with
  | .undefined => .error (.undefined .none)
  | v => .ok ((v.find? key).getD .undefined)

/-- The value at the end of a dotted path of names and positions. -/
def pathOf (v : Value) (path : String) : Except Cause Value :=
  (Text.split '.' path).foldlM (fun found part =>
    match Decimal.natural? (Nat.pow 2 64) part.toList with
    | some i => found.itemOf (.int i)
    | .none => found.memberOf part) v

/-- The items of a value that can be gone through. -/
def itemsOf (v : Value) : Except Cause (List Value) :=
  match v.items? with
  | some items => .ok items
  | .none => .error (.invalid (v.kind.name ++ " is not iterable"))

end Value

end SqlWorkflow.Template
