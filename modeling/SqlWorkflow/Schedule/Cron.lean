import SqlWorkflow.Decimal.Numeral
import SqlWorkflow.Text.Blank
import SqlWorkflow.Text.Split

/-!
# Cron expressions

A cron expression says at which times something is due: either by one of seven names, or by five
or six fields for the units of time.  A field is a list of values, ranges and steps within the
bounds of its unit.
-/

namespace SqlWorkflow.Cron

/-- The bounds and the notation of a unit of time. -/
structure Unit where
  least : Nat
  greatest : Nat
  /-- Names for values, the first one for the value `firstNamed`. -/
  names : List String := []
  firstNamed : Nat := 0
  /-- May the field be left open with `?`? -/
  isDay : Bool := false
  deriving DecidableEq, Repr

namespace Unit

def second : Unit := { least := 0, greatest := 59 }

def minute : Unit := { least := 0, greatest := 59 }

def hour : Unit := { least := 0, greatest := 23 }

def dayOfMonth : Unit := { least := 1, greatest := 31, isDay := true }

def month : Unit where
  least := 1
  greatest := 12
  names := ["JAN", "FEB", "MAR", "APR", "MAY", "JUN", "JUL", "AUG", "SEP", "OCT", "NOV", "DEC"]
  firstNamed := 1

/-- Days of the week; Sunday is both the first and the last. -/
def dayOfWeek : Unit where
  least := 0
  greatest := 7
  names := ["SUN", "MON", "TUE", "WED", "THU", "FRI", "SAT"]
  isDay := true

/-- Is the last value of the unit written `L`? -/
def hasLast (unit : Unit) : Bool := unit.isDay && unit.names.isEmpty

/-- May a value be followed by its place in the month? -/
def hasPlaces (unit : Unit) : Bool := unit.isDay && !unit.names.isEmpty

/-- The value that a name stands for. -/
def named? (unit : Unit) (text : List Char) : Option Nat :=
  (unit.names.findIdx? (· == String.ofList (text.map Char.toUpper))).map (unit.firstNamed + ·)

/-- The value within the bounds that a text stands for: a number or a name in any case. -/
def value? (unit : Unit) (text : List Char) : Option Nat :=
  ((Decimal.natural? (Nat.pow 2 32) text).or (unit.named? text)).filter fun n =>
    unit.least ≤ n && n ≤ unit.greatest

end Unit

/-! ## §1 Fields -/

/-- Is the text a positive number? -/
def isStep (text : List Char) : Bool :=
  (Decimal.digits? (Nat.pow 2 32) text).any (0 < ·)

/-- Is the text a value, or a range that does not fall? -/
def isRange (unit : Unit) (text : List Char) : Bool :=
  match Text.splitAt '-' text with
  | [value] => value.all Char.isAlphanum && (unit.value? value).isSome
  | [first, last] =>
    first.all Char.isAlphanum && last.all Char.isAlphanum &&
      match unit.value? first, unit.value? last with
      | some a, some b => a ≤ b
      | _, _ => false
  | _ => false

/-- Is the text `*` or a range, possibly with a step? -/
def isStepped (unit : Unit) (text : List Char) : Bool :=
  match Text.splitAt '/' text with
  | [range] => range == ['*'] || isRange unit range
  | [range, step] => (range == ['*'] || isRange unit range) && isStep step
  | _ => false

/-- Is the text a day of the week and its place in the month? -/
def isPlaced (unit : Unit) (text : List Char) : Bool :=
  match Text.cutAt? ['#'] text with
  | some (day, place) =>
    (unit.value? day).isSome && (Decimal.natural? (Nat.pow 2 32) place).any fun k => 1 ≤ k && k ≤ 5
  | none => false

/-- Is the text an item of a field's list? -/
def isItem (unit : Unit) (text : List Char) : Bool :=
  if unit.hasLast && text == ['L'] then true
  else if unit.hasPlaces && text.contains '#' then isPlaced unit text
  else isStepped unit text

/-- Is the text a field for the unit? -/
def isField (unit : Unit) (text : List Char) : Bool :=
  if text == ['?'] then unit.isDay else (Text.splitAt ',' text).all (isItem unit)

/-! ## §2 Expressions -/

/-- The names of usual times. -/
def names : List String :=
  ["@yearly", "@annually", "@monthly", "@weekly", "@daily", "@midnight", "@hourly"]

/-- The units of an expression with the given number of fields. -/
def layout? : Nat → Option (List Unit)
  | 5 => some [.minute, .hour, .dayOfMonth, .month, .dayOfWeek]
  | 6 => some [.second, .minute, .hour, .dayOfMonth, .month, .dayOfWeek]
  | _ => none

/-- Is the text a cron expression? -/
def isValid (text : String) : Bool :=
  let cs := Text.trimBoth Text.isBlank text.toList
  if cs.head? == some '@' then names.contains (String.ofList (cs.map Char.toLower))
  else
    let fields := Text.wordsOf Text.isBlank cs
    match layout? fields.length with
    | some units => (units.zip fields).all fun (unit, field) => isField unit field
    | none => false

end SqlWorkflow.Cron
