import SqlWorkflow.Document.Word
import SqlWorkflow.Template.Argument
import SqlWorkflow.Template.Arithmetic
import SqlWorkflow.Template.Format
import SqlWorkflow.Text.Blank
import SqlWorkflow.Text.Case

/-!
# Filters

A filter makes a new value of the value before it and of its arguments.  The filters that call
other filters or tests are not here; they belong to the evaluation of templates.
-/

namespace SqlWorkflow.Template

namespace Filter

/-! ## §1 Texts -/

/-- Is the character an ASCII sign that is no letter, digit, blank or control character? -/
def isPunctuation (c : Char) : Bool :=
  let n := c.toNat
  (33 ≤ n && n ≤ 47) || (58 ≤ n && n ≤ 64) || (91 ≤ n && n ≤ 96) || (123 ≤ n && n ≤ 126)

/-- The text with every word capitalised; `starts` says whether a word may start here. -/
def titleChars (starts : Bool) : List Char → List Char
  | [] => []
  | c :: cs =>
    if isPunctuation c || Text.isBlank c then c :: titleChars true cs
    else (if starts then Text.upperChar c else Text.lowerChar c) ++ titleChars false cs

/-- The text with its first character in upper case and the others in lower case. -/
def capitalize (s : String) : String :=
  match s.toList with
  | [] => ""
  | c :: cs => String.ofList (Text.upperChar c) ++ Text.lower (String.ofList cs)

/-- The text with every occurrence of one text replaced by another. -/
def replaceChars (old new : List Char) : Nat → List Char → List Char
  | 0, cs => cs
  | fuel + 1, cs =>
    match Text.cutAt? old cs with
    | some (before, after) => before ++ new ++ replaceChars old new fuel after
    | none => cs

/-- The text with every occurrence of one text replaced by another; nothing occurs before every
character and at the end. -/
def replaceAll (s old new : String) : String :=
  if old.isEmpty then new ++ String.join (s.toList.map fun c => String.singleton c ++ new)
  else String.ofList (replaceChars old.toList new.toList (s.length + 1) s.toList)

/-- The parts of a text between the occurrences of another, at most `most` of them. -/
def splitBy (needle : List Char) : Nat → List Char → List String
  | 0, cs => [String.ofList cs]
  | most + 1, cs =>
    match Text.cutAt? needle cs with
    | some (before, after) => String.ofList before :: splitBy needle most after
    | none => [String.ofList cs]

/-- The texts of some values with a separator between them; nothing is put between empty texts at
the start. -/
def joinItems (separator : String) (items : List Value) : String :=
  let joined (found : String) (item : Value) : String :=
    (if found.isEmpty then "" else found ++ separator) ++ item.write
  items.foldl joined ""

/-- The text without the line end that closes it. -/
def withoutBreak (cs : List Char) : List Char :=
  let cs := if cs.getLast? = some '\n' then cs.dropLast else cs
  if cs.getLast? = some '\r' then cs.dropLast else cs

/-- The text with every line but the first moved to the right. -/
def indentLines (s : String) (width : Nat) (firstToo blankToo : Bool) : String :=
  let margin := String.ofList (List.replicate width ' ')
  let lines := Text.split '\n' (String.ofList (withoutBreak s.toList))
  let moved (i : Nat) (line : String) : String :=
    if i = 0 && !firstToo then line
    else if line.isEmpty && !blankToo then line
    else margin ++ line
  Text.join "\n" (lines.mapIdx moved)

/-! ## §2 Numbers -/

/-- Whole numbers of 128 bits, the nearest one for a float beyond them. -/
def wholeOf (x : Float) : Int :=
  match Decimal.wholePart? x with
  | some n => max (-Nat.pow 2 127) (min n (Nat.pow 2 127 - 1))
  | none => if x.isNaN then 0 else if x > 0.0 then Nat.pow 2 127 - 1 else -Nat.pow 2 127

/-- The whole number that a text spells. -/
def spelledInt? (cs : List Char) : Option Int :=
  let n? : Option Int := match cs with
    | '-' :: ds => (Decimal.digits? (Nat.pow 2 127 + 1) ds).map fun n => -(n : Int)
    | '+' :: ds => (Decimal.digits? (Nat.pow 2 127) ds).map Int.ofNat
    | ds => (Decimal.digits? (Nat.pow 2 127) ds).map Int.ofNat
  n?

/-- The float that a text without a sign spells. -/
def spelledMagnitude? (cs : List Char) : Option Float :=
  let word := String.ofList (cs.map Char.toLower)
  if word = "inf" || word = "infinity" then some (1.0 / 0.0)
  else if word = "nan" then some (0.0 / 0.0)
  else Word.fraction? cs

/-- The float that a text spells. -/
def spelledFloat (s : String) : Except Cause Float :=
  let x? := match s.toList with
    | '-' :: cs => (spelledMagnitude? cs).map fun x => -x
    | '+' :: cs => spelledMagnitude? cs
    | cs => spelledMagnitude? cs
  match x? with
  | some x => .ok x
  | none =>
    .error (.invalid (if s.isEmpty then "cannot parse float from empty string"
      else "invalid float literal"))

/-- The value as a whole number. -/
def toInt (v : Value) : Except Cause Value :=
  match v with
  | .undefined | .none => .ok (.int 0)
  | .bool b => .ok (.int (if b then 1 else 0))
  | .int n => .ok (.int n)
  | .float x => .ok (.int (wholeOf x))
  | .text s | .markup s =>
    match spelledInt? s.toList with
    | some n => .ok (.int n)
    | none => (spelledFloat s).map fun x => .int (wholeOf x)
  | v => .error (.invalid ("cannot convert " ++ v.kind.name ++ " to integer"))

/-- The value as a float. -/
def toFloat (v : Value) : Except Cause Value :=
  match v with
  | .undefined | .none => .ok (.float 0.0)
  | .bool b => .ok (.float (if b then 1.0 else 0.0))
  | .int n => .ok (.float (Float.ofInt n))
  | .float x => .ok (.float x)
  | .text s | .markup s => (spelledFloat s).map .float
  | v => .error (.invalid ("cannot convert " ++ v.kind.name ++ " to float"))

/-- The number without its sign. -/
def absolute (v : Value) : Except Cause Value :=
  match v with
  | .int n => Value.wide (.invalid "overflow on abs") n.natAbs
  | .float x => .ok (.float x.abs)
  | _ => .error (.invalid "cannot get absolute value")

/-- The number rounded to some places; a tie goes away from zero. -/
def round (v : Value) (places : Int) : Except Cause Value :=
  match v with
  | .int n => .ok (.int n)
  | .float x =>
    let unit := if 0 ≤ places then Float.ofScientific 1 false places.toNat
      else 1.0 / Float.ofScientific 1 false places.natAbs
    .ok (.float ((unit * x).round / unit))
  | v => .error (.invalid ("cannot round value (" ++ v.kind.name ++ ")"))

/-! ## §3 Lists and dictionaries -/

/-- The items of a value that is made a list. -/
def listOf (v : Value) : Except Cause (List Value) :=
  match v.items? with
  | some items => .ok items
  | none => .error (.invalid "cannot convert value to list")

/-- A text in lower case as far as ASCII goes. -/
def asciiLower (s : String) : String := String.ofList (s.toList.map Char.toLower)

/-- The order of two values, in which the case of ASCII letters may not count. -/
def orderBy (caseSensitive : Bool) (a b : Value) : Ordering :=
  match a.text?, b.text? with
  | some s, some t =>
    if caseSensitive then compare s t else compare (asciiLower s) (asciiLower t)
  | _, _ => a.order b

/-- The items in order; equal items stay as they are. -/
def sortItems {α : Type} (order : α → α → Ordering) (items : List α) : List α :=
  items.mergeSort fun a b => order a b != .gt

/-- The order of two values by an attribute; values without it are equal to all others. -/
def orderByPath (caseSensitive : Bool) (path : String) (a b : Value) : Ordering :=
  match a.pathOf path, b.pathOf path with
  | .ok a, .ok b => orderBy caseSensitive a b
  | _, _ => .eq

/-- The first of the smallest items. -/
def least : List Value → Value
  | [] => .undefined
  | item :: rest => rest.foldl (fun found v => if v.order found = .lt then v else found) item

/-- The last of the greatest items. -/
def greatest : List Value → Value
  | [] => .undefined
  | item :: rest => rest.foldl (fun found v => if v.order found = .lt then found else v) item

/-- The sum of the items that are there. -/
def sum (items : List Value) : Except Cause Value :=
  items.foldlM (fun total item =>
    match item with
    | .undefined => .ok total
    | item => Value.add total item) (.int 0)

/-- The items without those whose key came before. -/
def withoutRepeats : List Value → List (Value × Value) → List Value
  | _, [] => []
  | seen, (item, key) :: rest =>
    if seen.any fun k => k.order key = .eq then withoutRepeats seen rest
    else item :: withoutRepeats (key :: seen) rest

/-- What two items are compared by to find repeats. -/
def repeatKey (caseSensitive : Bool) (v : Value) : Value :=
  match v.text? with
  | some s => if caseSensitive then v else .text (Text.lower s)
  | none => v

/-- The value backwards. -/
def reverse (v : Value) : Except Cause Value :=
  match v with
  | .undefined | .none => .ok v
  | .text s | .markup s => .ok (.text (String.ofList s.toList.reverse))
  | v =>
    match v.items? with
    | some items => .ok (.iterator items.reverse)
    | none => .error (.invalid ("cannot reverse values of type " ++ v.kind.name))

/-- The first item, character or key. -/
def first (v : Value) : Except Cause Value :=
  match v with
  | .undefined | .none => .error (.invalid "cannot get first item from value")
  | v =>
    match v.items? with
    | some items => .ok (items.head?.getD .undefined)
    | none => .error (.invalid "cannot get first item from value")

/-- The last item or character. -/
def last (v : Value) : Except Cause Value :=
  match v with
  | .text s | .markup s =>
    .ok ((s.toList.getLast?.map fun c => .text (String.singleton c)).getD .undefined)
  | .list items | .iterator items => .ok (items.getLast?.getD .undefined)
  | .group _ items => .ok (.iterator items)
  | _ => .error (.invalid "cannot get last item from value")

/-- The number of items. -/
def length (v : Value) : Except Cause Value :=
  match v.length? with
  | some n => .ok (.int n)
  | none => .error (.invalid ("cannot calculate length of value of type " ++ v.kind.name))

/-- The entries of a dictionary. -/
def pairs (v : Value) : Except Cause (List (Value × Value)) :=
  match v.entries? with
  | some entries => .ok entries
  | none => .error (.invalid "cannot convert value into pair list")

/-- A list of lists of two. -/
def ofPairs (entries : List (Value × Value)) : Value :=
  .list (entries.map fun (key, value) => .list [key, value])

/-- The items in rows of so many, the last of which may be filled up. -/
def rowsOf (width : Nat) (filler : Option Value) : Nat → List Value → List (List Value)
  | 0, _ | _, [] => []
  | fuel + 1, items =>
    let row := items.take width
    let row := match filler with
      | some v => row ++ List.replicate (width - row.length) v
      | none => row
    row :: rowsOf width filler fuel (items.drop width)

/-- The items in so many columns, as even as they can be; the shorter ones may be filled up. -/
def columnsOf (count : Nat) (filler : Option Value) (items : List Value) : List (List Value) :=
  let height := items.length / count
  let longer := items.length % count
  let start (i : Nat) : Nat := i * height + min i longer
  (List.range count).map fun i =>
    let column := (items.take (start (i + 1))).drop (start i)
    match filler with
    | some v => if longer ≤ i then column ++ [v] else column
    | none => column

/-- Items that stand in the order of their keys, with those together whose keys are equal.  The key
of a group is that of its last item. -/
def groupRuns (order : Value → Value → Ordering) : List (Value × Value) → List Value
  | [] => []
  | (key, item) :: rest =>
    match groupRuns order rest with
    | .group next items :: groups =>
      if order next key = .eq then .group next (item :: items) :: groups
      else .group key [item] :: .group next items :: groups
    | groups => .group key [item] :: groups

/-- The items of several lists side by side, as far as the shortest list goes. -/
def sideBySide (lists : List (List Value)) : List Value :=
  match lists with
  | [] => []
  | first :: rest =>
    let length := rest.foldl (fun n items => min n items.length) first.length
    (List.range length).map fun i => .list (lists.map fun items => items[i]?.getD .undefined)

/-! ## §4 The filters by name -/

/-- A filter that takes no arguments. -/
def plain (f : Value → Except Cause Value) : Take Value := do f (← Take.required)

/-- A filter on text that takes no arguments. -/
def onText (f : String → String) : Take Value := do return .text (f (← Take.written))

/-- Sorting, by the value or by an attribute. -/
def sort : Take Value := do
  let items ← listOf (← Take.required)
  let options ← Take.named
  let caseSensitive ← Take.option options "case_sensitive" Take.flagOf
  let path ← Take.option options "attribute" Take.textOf
  let backwards ← Take.option options "reverse" Take.flagOf
  Take.onlyNamed options ["case_sensitive", "attribute", "reverse"]
  let sensitive := caseSensitive.getD false
  let sorted := match path with
    | some path => sortItems (orderByPath sensitive path) items
    | none => sortItems (orderBy sensitive) items
  return .list (if backwards.getD false then sorted.reverse else sorted)

/-- The entries of a dictionary in order. -/
def sortPairs : Take Value := do
  let entries ← pairs (← Take.required)
  let options ← Take.named
  let field ← Take.option options "by" Take.textOf
  let byValue ← match field with
    | none | some "key" => pure false
    | some "value" => pure true
    | some other => throw (.invalid ("invalid value '" ++ other ++ "' for \"by\" parameter"))
  let caseSensitive ← Take.option options "case_sensitive" Take.flagOf
  let backwards ← Take.option options "reverse" Take.flagOf
  Take.onlyNamed options ["by", "case_sensitive", "reverse"]
  let part (entry : Value × Value) : Value := if byValue then entry.2 else entry.1
  let sorted := sortItems (fun a b => orderBy (caseSensitive.getD false) (part a) (part b)) entries
  return ofPairs (if backwards.getD false then sorted.reverse else sorted)

/-- The items without repeats. -/
def unique : Take Value := do
  let v ← Take.required
  let options ← Take.named
  let path ← Take.option options "attribute" Take.textOf
  let caseSensitive ← Take.option options "case_sensitive" Take.flagOf
  Take.onlyNamed options ["attribute", "case_sensitive"]
  let items ← v.itemsOf
  let key (item : Value) : Value :=
    let v := match path with
      | some path => match item.pathOf path with
        | .ok v => v
        | .error _ => .undefined
      | none => item
    repeatKey (caseSensitive.getD false) v
  return .list (withoutRepeats [] (items.map fun item => (item, key item)))

/-- The items joined to a text. -/
def join : Take Value := do
  let v ← Take.required
  let separator ← Take.writtenIfAny
  match v.items? with
  | some items => return .text (joinItems (separator.getD "") items)
  | none => throw (.invalid ("cannot join value of type " ++ v.kind.name))

/-- The value, or another if it is missing. -/
def default : Take Value := do
  let v ← Take.required
  let other ← Take.optional
  let lax ← Take.ifAny Take.flagOf
  let missing := match v with
    | .undefined => true
    | v => lax.getD false && !v.isTrue
  return if missing then other.getD (.text "") else v

/-- The parts of a text. -/
def split : Take Value := do
  let s ← Take.written
  let separator ← Take.writtenIfAny
  let most ← Take.ifAny (Take.intOf "i64" (-Nat.pow 2 63) (Nat.pow 2 63))
  let count := match most with
    | some n => if 0 ≤ n then n.toNat else s.length + 1
    | none => s.length + 1
  let parts := match separator with
    | some separator => splitBy separator.toList count s.toList
    | none => (Text.wordsOf Text.isBlank s.toList).map String.ofList
  return .list (parts.map .text)

/-- The text without blanks, or without some characters, at its ends. -/
def trim : Take Value := do
  let s ← Take.written
  let chars ← Take.writtenIfAny
  return .text (match chars with
    | some chars => String.ofList (Text.trimBoth (fun c => chars.toList.contains c) s.toList)
    | none => Text.trim s)

/-- The pattern filled with the arguments. -/
def format : Take Value := do
  let pattern ← Take.written
  let args ← Take.rest
  let named := match args.getLast? with
    | some (.arguments entries) => entries.map fun (name, value) => (Value.text name, value)
    | some v => v.entries?.getD []
    | none => []
  let plain := if named.isEmpty then args else args.dropLast
  .text <$> (fillPattern named (pattern.length + 1) pattern.toList plain : Except Cause String)

/-- The text moved to the right. -/
def indent : Take Value := do
  let s ← Take.written
  let width ← Take.indexOf (← Take.required)
  let firstToo ← Take.ifAny Take.flagOf
  let blankToo ← Take.ifAny Take.flagOf
  return .text (indentLines s width (firstToo.getD false) (blankToo.getD false))

/-- The parts into which a filter with a count and a filler divides the items of a value. -/
def divided (parts : Nat → Option Value → List Value → List (List Value)) : Take Value := do
  let v ← Take.required
  let count ← Take.intOf "usize" 0 (Nat.pow 2 64) (← Take.required)
  let filler ← Take.optional
  if count = 0 then throw (.invalid "count cannot be 0")
  let items ← v.itemsOf
  return .list ((parts count.toNat filler items).map .list)

/-- The items in groups with a common attribute. -/
def groupBy : Take Value := do
  let v ← Take.required
  let field ← Take.plainIfAny Take.textOf
  let options ← Take.named
  let fallback ← Take.option options "default" Except.ok
  let caseSensitive ← Take.option options "case_sensitive" Take.flagOf
  let path ← match field with
    | some path => pure path
    | none =>
      match ← Take.option options "attribute" Take.textOf with
      | some path => pure path
      | none => throw (.missingNamed "attribute")
  let items ← v.itemsOf
  Take.onlyNamed options
    (["default", "case_sensitive"] ++ if field.isNone then ["attribute"] else [])
  let key (item : Value) : Value :=
    match item.pathOf path with
    | .error _ | .ok .undefined => fallback.getD .undefined
    | .ok v => v
  let order := orderBy (caseSensitive.getD false)
  let sorted := sortItems (fun a b => order a.1 b.1) (items.map fun item => (key item, item))
  return .list (groupRuns order sorted)

/-- The items of several values side by side. -/
def zip : Take Value := do
  let first ← Take.required
  let rest ← Take.rest
  let lists ← (first :: rest).mapM fun v =>
    match v.items? with
    | some items => pure items
    | none =>
      throw (.invalid ("zip filter argument must be iterable, got " ++ v.kind.name))
  return .iterator (sideBySide lists)

/-- The items of several values one after the other; of several dictionaries one. -/
def chain : Take Value := do
  let first ← Take.required
  let rest ← Take.rest
  let all := first :: rest
  if all.all fun v => v.kind == .map then
    return .ofEntries (all.flatMap fun v => v.entries?.getD [])
  else
    let lists ← all.mapM fun v => (v.itemsOf : Except Cause (List Value))
    return if all.all fun v => v.kind == .sequence then .list lists.flatten
      else .iterator lists.flatten

/-- The value as text that needs no further escape. -/
def escape (v : Value) : Except Cause Value := .ok (.markup v.escaped)

/-- The value as text; text that needs no escape stays such text. -/
def string (v : Value) : Except Cause Value :=
  match v with
  | .markup s => .ok (.markup s)
  | v => .text <$> Take.writtenOf v

/-- The filters that need nothing but their arguments. -/
def table : List (String × Take Value) := [
  ("abs", plain absolute),
  ("attr", do
    let v ← Take.required
    v.itemOf (← Take.required)),
  ("batch", divided fun width filler items => rowsOf width filler items.length items),
  ("bool", plain fun v => .ok (.bool v.isTrue)),
  ("capitalize", onText capitalize),
  ("chain", chain),
  ("count", plain length),
  ("d", default),
  ("default", default),
  ("dictsort", sortPairs),
  ("e", plain escape),
  ("escape", plain escape),
  ("first", plain first),
  ("float", plain toFloat),
  ("format", format),
  ("groupby", groupBy),
  ("indent", indent),
  ("int", plain toInt),
  ("items", plain fun v => ofPairs <$> pairs v),
  ("join", join),
  ("last", plain last),
  ("length", plain length),
  ("lines", do
    let s ← Take.written
    let lines := Text.split '\n' s
    let lines := if lines.getLast? = some "" then lines.dropLast else lines
    return .list (lines.map fun line => .text (String.ofList (withoutBreak line.toList)))),
  ("list", plain fun v => .list <$> listOf v),
  ("lower", onText Text.lower),
  ("max", plain fun v => greatest <$> listOf v),
  ("min", plain fun v => least <$> listOf v),
  ("pprint", plain fun v => .ok (.text (v.pretty ""))),
  ("replace", do
    let s ← Take.written
    let old ← Take.written
    let new ← Take.written
    return .text (replaceAll s old new)),
  ("reverse", plain reverse),
  ("round", do
    let v ← Take.required
    let places ← Take.ifAny (Take.intOf "i32" (-Nat.pow 2 31) (Nat.pow 2 31))
    round v (places.getD 0)),
  ("safe", do return .markup (← Take.written)),
  ("slice", divided columnsOf),
  ("sort", sort),
  ("split", split),
  ("string", plain string),
  ("sum", plain fun v => v.itemsOf >>= sum),
  ("title", onText fun s => String.ofList (titleChars true s.toList)),
  ("trim", trim),
  ("unique", unique),
  ("upper", onText Text.upper),
  ("zip", zip)]

/-- The filter with a name, among those that need nothing but their arguments. -/
def find? (name : String) : Option (Take Value) := lookupEntry name table

end Filter

end SqlWorkflow.Template
