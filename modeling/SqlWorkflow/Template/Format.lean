import SqlWorkflow.Decimal.Fixed
import SqlWorkflow.Template.Fault
import SqlWorkflow.Template.Value

/-!
# Patterns for texts

A pattern is a text in which `%` starts a directive: flags, a width, a precision and a letter that
says how the next argument is written.  A name in brackets after `%` takes a named argument.
-/

namespace SqlWorkflow.Template

/-- A directive of a pattern. -/
structure Directive where
  /-- The argument that is written; the next one if there is no name. -/
  name : Option String := none
  /-- Blanks go after the text, not before. -/
  left : Bool := false
  zeros : Bool := false
  plus : Bool := false
  blank : Bool := false
  /-- The mark of the base is written too. -/
  mark : Bool := false
  width : Nat := 0
  precision : Option Nat := none
  deriving Repr, Inhabited

namespace Directive

/-- Reads the flags. -/
def flags (d : Directive) : List Char → Directive × List Char
  | '-' :: cs => flags { d with left := true } cs
  | '0' :: cs => flags { d with zeros := true } cs
  | '+' :: cs => flags { d with plus := true } cs
  | ' ' :: cs => flags { d with blank := true } cs
  | '#' :: cs => flags { d with mark := true } cs
  | cs => (d, cs)

/-- The number at the start of a text, and what follows. -/
def number (cs : List Char) : Nat × List Char :=
  ((String.ofList (cs.takeWhile Char.isDigit)).toNat?.getD 0, cs.dropWhile Char.isDigit)

/-- Reads a directive after its `%`, up to its letter. -/
def ofChars (cs : List Char) : Directive × List Char :=
  let (d, cs) : Directive × List Char := match cs with
    | '(' :: rest =>
      let name := rest.takeWhile (· != ')')
      ({ name := some (String.ofList name) }, (rest.drop name.length).tail)
    | cs => ({}, cs)
  let (d, cs) := flags d cs
  let (width, cs) := number cs
  let d := { d with width }
  match cs with
  | '.' :: rest =>
    let (precision, rest) := number rest
    ({ d with precision := some precision }, rest)
  | cs => (d, cs)

/-- The text brought to the width. -/
def pad (d : Directive) (sign body : String) : String :=
  let missing := d.width - (sign.length + body.length)
  if d.left then sign ++ body ++ String.ofList (List.replicate missing ' ')
  else if d.zeros then sign ++ String.ofList (List.replicate missing '0') ++ body
  else String.ofList (List.replicate missing ' ') ++ sign ++ body

/-- The sign of a number. -/
def signOf (d : Directive) (negative : Bool) : String :=
  if negative then "-" else if d.plus then "+" else if d.blank then " " else ""

/-- A whole number with so many digits at least. -/
def writeInt (d : Directive) (base : Nat) (mark : String) (upper : Bool) (n : Int) : String :=
  let digits := (Nat.toDigits base n.natAbs).map fun c => if upper then c.toUpper else c.toLower
  let digits := List.replicate ((d.precision.getD 0) - digits.length) '0' ++ digits
  d.pad (d.signOf (n < 0)) ((if d.mark then mark else "") ++ String.ofList digits)

/-- The whole number in an argument. -/
def intOf (v : Value) : Except Cause Int :=
  match v with
  | .float x =>
    match Decimal.wholePart? x with
    | some n => .ok n
    | none => .error (.invalid "number required for format")
  | v =>
    match v.int? with
    | some n => .ok n
    | none => .error (.invalid "number required for format")

/-- The argument as the letter of the directive says. -/
def write (d : Directive) (letter : Char) (v : Value) : Except Cause String := do
  match letter with
  | 's' =>
    let text := v.write
    return { d with zeros := false }.pad ""
      (match d.precision with
        | some n => String.ofList (text.toList.take n)
        | none => text)
  | 'r' => return { d with zeros := false }.pad "" v.inner
  | 'd' | 'i' | 'u' => return d.writeInt 10 "" false (← intOf v)
  | 'x' => return d.writeInt 16 "0x" false (← intOf v)
  | 'X' => return d.writeInt 16 "0X" true (← intOf v)
  | 'o' => return d.writeInt 8 "0o" false (← intOf v)
  | 'f' | 'F' =>
    match v.float? with
    | some x =>
      let body := Decimal.fixed (d.precision.getD 6) x
      match body.toList with
      | '-' :: rest => return d.pad "-" (String.ofList rest)
      | _ => return d.pad (d.signOf false) body
    | none => throw (.invalid "number required for format")
  | _ => throw (.invalid "unsupported format character")

end Directive

/-- The pattern with its directives replaced, in at most `fuel` steps. -/
def fillPattern (named : List (Value × Value)) :
    Nat → List Char → List Value → Except Cause String
  | 0, _, _ => .ok ""
  | _ + 1, [], [] => .ok ""
  | _ + 1, [], _ :: _ => .error (.tooManyArguments none)
  | fuel + 1, '%' :: '%' :: cs, args => do return "%" ++ (← fillPattern named fuel cs args)
  | fuel + 1, '%' :: cs, args => do
    let (d, cs) := Directive.ofChars cs
    match cs with
    | [] => throw (.invalid "incomplete format")
    | letter :: cs =>
      match d.name, args with
      | some name, args =>
        let value := (Value.findEntry (.text name) named).getD .undefined
        return (← d.write letter value) ++ (← fillPattern named fuel cs args)
      | none, v :: args => return (← d.write letter v) ++ (← fillPattern named fuel cs args)
      | none, [] => throw .missingArgument
  | fuel + 1, c :: cs, args => do
    return String.singleton c ++ (← fillPattern named fuel cs args)

end SqlWorkflow.Template
