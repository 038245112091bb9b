import SqlWorkflow.Document.Basic
import SqlWorkflow.Text.Split

/-!
# Unquoted words

What an unquoted word of a YAML document denotes when nothing particular is expected in its
place: nothing, a truth value, a whole number, a binary fraction, or the text itself.
-/

namespace SqlWorkflow.Word

/-- The denotation of an unquoted word. -/
inductive Meaning where
  | null
  | bool (b : Bool)
  | int (n : Int)
  | float (x : Float)
  | text (s : String)
  deriving Repr, Inhabited

/-- Is the word empty or one of the spellings of the null value? -/
def isNull (s : String) : Bool :=
  ["", "null", "Null", "NULL", "~"].contains s

/-- The truth value that the word spells. -/
def bool? (s : String) : Option Bool :=
  if ["true", "True", "TRUE"].contains s then some true
  else if ["false", "False", "FALSE"].contains s then some false
  else none

/-- The value of a digit in a base of at most sixteen. -/
def digit? (base : Nat) (c : Char) : Option Nat :=
  let value? :=
    if '0' ≤ c ∧ c ≤ '9' then some (c.toNat - '0'.toNat)
    else if 'a' ≤ c ∧ c ≤ 'f' then some (c.toNat - 'a'.toNat + 10)
    else if 'A' ≤ c ∧ c ≤ 'F' then some (c.toNat - 'A'.toNat + 10)
    else none
  value?.filter (· < base)

/-- The number that one or more digits of a base denote. -/
def natural? (base : Nat) (cs : List Char) : Option Nat :=
  if cs.isEmpty then none
  else cs.foldl (fun acc c => acc.bind fun n => (digit? base c).map (n * base + ·)) (some 0)

/-- Digits with a leading zero, such as `007`, are text and not a number. -/
def isPaddedDigits (cs : List Char) : Bool :=
  let cs := match cs with
    | '-' :: rest | '+' :: rest => rest
    | _ => cs
  match cs with
  | '0' :: rest => !rest.isEmpty && rest.all Char.isDigit
  | _ => false

/-- The whole number after an optional base mark. -/
private def magnitude? (cs : List Char) : Option Nat :=
  match cs with
  | '0' :: 'x' :: rest => natural? 16 rest
  | '0' :: 'o' :: rest => natural? 8 rest
  | '0' :: 'b' :: rest => natural? 2 rest
  | _ => natural? 10 cs

/-- The whole number that the word spells, if it needs no more than 64 bits. -/
def int? (s : String) : Option Int :=
  let cs := s.toList
  if isPaddedDigits cs then none
  else
    match cs with
    | '+' :: rest => (magnitude? rest).bind fun n => if n < Nat.pow 2 64 then some n else none
    | '-' :: rest => (magnitude? rest).bind fun n => if n ≤ Nat.pow 2 63 then some (-n) else none
    | _ => (magnitude? cs).bind fun n => if n < Nat.pow 2 64 then some n else none

/-- The unsigned whole number that the word spells, if it needs no more than 64 bits. -/
def unsigned? (s : String) : Option Nat :=
  match int? s with
  | some (.ofNat n) => if s.toList.head? = some '-' then none else some n
  | _ => none

/-- Reads `digits`, `digits.digits` or `.digits` with an optional power of ten. -/
def fraction? (cs : List Char) : Option Float :=
  let whole := cs.takeWhile Char.isDigit
  let afterWhole := cs.dropWhile Char.isDigit
  let (places, afterPlaces) := match afterWhole with
    | '.' :: rest => (rest.takeWhile Char.isDigit, rest.dropWhile Char.isDigit)
    | _ => ([], afterWhole)
  if whole.isEmpty && places.isEmpty then none
  else
    let power? : Option Int := match afterPlaces with
      | [] => some 0
      | c :: rest =>
        if c = 'e' || c = 'E' then
          match rest with
          | '-' :: ds => (natural? 10 ds).map fun n => -(n : Int)
          | '+' :: ds => (natural? 10 ds).map Int.ofNat
          | ds => (natural? 10 ds).map Int.ofNat
        else none
    power?.bind fun power =>
      (natural? 10 (whole ++ places)).map fun mantissa =>
        -- Powers beyond these bounds give zero or infinity for every mantissa in reach.
        let power := max (-100000) (min 100000 (power - places.length))
        if mantissa = 0 then 0.0
        else Float.ofScientific mantissa (power < 0) power.natAbs

/-- The binary fraction that a text spells. -/
def fractionOf? (s : String) : Option Float :=
  let cs := s.toList
  if [".inf", ".Inf", ".INF", "+.inf", "+.Inf", "+.INF"].contains s then some (1.0 / 0.0)
  else if ["-.inf", "-.Inf", "-.INF"].contains s then some (-1.0 / 0.0)
  else if [".nan", ".NaN", ".NAN"].contains s then some (0.0 / 0.0)
  else
    let x? := match cs with
      | '-' :: rest => (fraction? rest).map fun x => -x
      | '+' :: rest => fraction? rest
      | _ => fraction? cs
    x?.filter Float.isFinite

/-- The binary fraction that the word spells. -/
def float? (s : String) : Option Float := if isPaddedDigits s.toList then none else fractionOf? s

/-- The denotation of a word in a place where anything is allowed. -/
def meaning (s : String) : Meaning :=
  if isNull s then .null
  else
    match bool? s with
    | some b => .bool b
    | none =>
      match int? s with
      | some n => .int n
      | none =>
        match float? s with
        | some x => .float x
        | none => .text s

end SqlWorkflow.Word
