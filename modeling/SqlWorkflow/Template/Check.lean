import SqlWorkflow.Template.Argument
import SqlWorkflow.Template.Arithmetic
import SqlWorkflow.Text.Case

/-!
# Tests

A test says whether a value has a property.
-/

namespace SqlWorkflow.Template

namespace Check

/-- A test that takes no arguments. -/
def plain (p : Value → Bool) : Take Bool := do return p (← Take.required)

/-- A test that compares with its argument. -/
def against (p : Value → Value → Bool) : Take Bool := do
  let v ← Take.required
  return p v (← Take.required)

/-- Is the value a whole number with the given remainder by two? -/
def hasParity (r : Int) (v : Value) : Bool :=
  match v.int? with
  | some n => n % 2 == r
  | none => false

/-- Is the value a whole number? -/
def isInteger : Value → Bool
  | .int _ => true
  | _ => false

/-- Is the value a float? -/
def isFloat : Value → Bool
  | .float _ => true
  | _ => false

/-- Is the character in lower case? -/
def isLower (c : Char) : Bool := Text.lowerChar c == [c] && Text.upperChar c != [c]

/-- Is the character in upper case? -/
def isUpper (c : Char) : Bool := Text.upperChar c == [c] && Text.lowerChar c != [c]

/-- Do all characters of a text have a property? -/
def allChars (p : Char → Bool) : Take Bool := do return (← Take.text).toList.all p

/-- Are the values the same and of one kind? -/
def isSameAs (a b : Value) : Bool := a.kind == b.kind && a.same b && isFloat a == isFloat b

/-- May the value be called? -/
def isCallable : Value → Bool
  | .definition _ | .function _ => true
  | _ => false

/-- Is the value text that is written as it stands even where texts are escaped? -/
def isMarkup : Value → Bool
  | .markup _ => true
  | _ => false

/-- Is the value a member of the argument? -/
def isIn : Take Bool := do
  let v ← Take.required
  match v.within (← Take.required) with
  | .ok b => return b
  | .error _ => return false

/-- Does the number divide by the argument? -/
def isDivisible : Take Bool := do
  let v ← Take.required
  let n ← Take.required
  match v.int?, n.int? with
  | some x, some y => return y != 0 && x % y == 0
  | _, _ => return false

/-- The tests by name, with their other names. -/
def table : List (String × Take Bool) :=
  let equal := against Value.same
  let differs := against fun a b => !a.same b
  let below := against fun a b => a.order b == .lt
  let belowOrEqual := against fun a b => a.order b != .gt
  let above := against fun a b => a.order b == .gt
  let aboveOrEqual := against fun a b => a.order b != .lt
  [("!=", differs),
  ("<", below),
  ("<=", belowOrEqual),
  ("==", equal),
  (">", above),
  (">=", aboveOrEqual),
  ("boolean", plain fun v => v.kind == .bool),
  ("callable", plain isCallable),
  ("defined", plain fun v => v.kind != .undefined),
  ("divisibleby", isDivisible),
  ("endingwith", do
    let s ← Take.written
    let last ← Take.written
    return last.toList.isSuffixOf s.toList),
  ("eq", equal),
  ("equalto", equal),
  ("escaped", plain isMarkup),
  ("even", plain (hasParity 0)),
  ("false", plain fun v => v.kind == .bool && !v.isTrue),
  ("float", plain isFloat),
  ("ge", aboveOrEqual),
  ("greaterthan", above),
  ("gt", above),
  ("in", isIn),
  ("integer", plain isInteger),
  ("iterable", plain fun v => v.items?.isSome),
  ("le", belowOrEqual),
  ("lessthan", below),
  ("lower", allChars isLower),
  ("lt", below),
  ("mapping", plain fun v => v.kind == .map),
  ("ne", differs),
  ("none", plain fun v => v.kind == .none),
  ("number", plain fun v => v.kind == .number),
  ("odd", plain (hasParity 1)),
  ("safe", plain isMarkup),
  ("sameas", against isSameAs),
  ("sequence", plain fun v => v.kind == .sequence),
  ("startingwith", do
    let s ← Take.written
    let first ← Take.written
    return first.toList.isPrefixOf s.toList),
  ("string", plain fun v => v.kind == .text),
  ("true", plain fun v => v.kind == .bool && v.isTrue),
  ("undefined", plain fun v => v.kind == .undefined),
  ("upper", allChars isUpper)]

/-- The test with a name. -/
def find? (name : String) : Option (Take Bool) := lookupEntry name table

end Check

end SqlWorkflow.Template
