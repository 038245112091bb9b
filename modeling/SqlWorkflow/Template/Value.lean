import SqlWorkflow.Decimal.Layout
import SqlWorkflow.Dict
import SqlWorkflow.Template.Tree
import SqlWorkflow.Text.Quoted
import SqlWorkflow.Text.Split

/-!
# Values of templates

What an expression denotes.  Values of different kinds are ordered by their kind; values of one
kind are ordered by what they are.  The entries of a dictionary stand in the order of their keys.
-/

namespace SqlWorkflow.Template

/-- What templates see of an object that they cannot look into. -/
structure Handle where
  /-- The number of the object among those of its owner. -/
  id : Nat
  /-- What is written for the object. -/
  label : String
  deriving DecidableEq, Repr, Inhabited

/-- A function that a template defines. -/
structure Definition where
  /-- The template that defines it. -/
  file : String
  name : String
  params : List Param
  body : List Stmt
  /-- The cell of the values that the body uses from around its definition. -/
  cell : Nat
  /-- Does the body ask for the function that a call passes along? -/
  usesCaller : Bool := false
  deriving Repr, Inhabited

/-- A value. -/
inductive Value where
  | undefined
  | none
  | bool (b : Bool)
  | int (n : Int)
  | float (x : Float)
  | text (s : String)
  /-- Text that is written as it stands even where texts are escaped. -/
  | markup (s : String)
  | list (items : List Value)
  /-- Items that are made one after the other. -/
  | iterator (items : List Value)
  /-- The items that have a key in common, and the key. -/
  | group (key : Value) (items : List Value)
  | dict (entries : List (Value × Value))
  /-- The named arguments of a call. -/
  | arguments (entries : List (String × Value))
  /-- Attributes, and what is written for all of them. -/
  | record (entries : List (String × Value)) (label : String)
  /-- A scope whose attributes can be changed, kept in a cell. -/
  | scope (cell : Nat)
  /-- A loop, by its number. -/
  | loop (id : Nat)
  | definition (d : Definition)
  /-- A function of the environment. -/
  | function (name : String)
  | handle (h : Handle)
  deriving Repr, Inhabited

/-- What a value is, as far as messages and the order of values are concerned. -/
inductive ValueKind where
  | undefined | none | bool | number | text | sequence | map | iterator | object
  deriving DecidableEq, Repr, Inhabited

namespace ValueKind

/-- The name of a kind. -/
def name : ValueKind → String
  | .undefined => "undefined"
  | .none => "none"
  | .bool => "bool"
  | .number => "number"
  | .text => "string"
  | .sequence => "sequence"
  | .map => "map"
  | .iterator => "iterator"
  | .object => "plain object"

/-- The place of a kind in the order of values. -/
def rank : ValueKind → Nat
  | .undefined => 0
  | .none => 1
  | .bool => 2
  | .number => 3
  | .text => 4
  | .sequence => 5
  | .map => 6
  | .iterator => 7
  | .object => 8

end ValueKind

namespace Value

/-- The kind of a value. -/
def kind : Value → ValueKind
  | .undefined => .undefined
  | .none => .none
  | .bool _ => .bool
  | .int _ | .float _ => .number
  | .text _ | .markup _ => .text
  | .list _ | .group _ _ => .sequence
  | .iterator _ => .iterator
  | .dict _ | .arguments _ | .record _ _ | .scope _ | .loop _ | .definition _ => .map
  | .function _ | .handle _ => .object

/-- The text in a value, if it is text. -/
def text? : Value → Option String
  | .text s | .markup s => some s
  | _ => .none

/-! ## §1 Numbers -/

/-- A place for each float: the order of places is the order of floats, with the negative zero
before the positive one and everything that is no number at the ends. -/
def floatPlace (x : Float) : Int :=
  let bits := x.toBits.toNat
  if bits < Nat.pow 2 63 then bits else -(bits - Nat.pow 2 63 : Nat) - 1

/-- The whole number in a float of at most 64 bits without places. -/
def wholeOf? (x : Float) : Option Int :=
  let n := x.toInt64.toInt
  if Float.ofInt n == x then some n else .none

/-- Whole numbers of 64 bits. -/
def isWord (n : Int) : Bool := -Nat.pow 2 63 ≤ n && n < Nat.pow 2 63

/-- Whole numbers of 128 bits, which arithmetic works on. -/
def isWide (n : Int) : Bool := -Nat.pow 2 127 ≤ n && n < Nat.pow 2 127

/-- The value as a whole number, if it is one. -/
def int? : Value → Option Int
  | .bool b => some (if b then 1 else 0)
  | .int n => if isWide n then some n else .none
  | .float x => wholeOf? x
  | _ => .none

/-- The value as a whole number of 64 bits, such as an index. -/
def word? (v : Value) : Option Int := v.int?.filter isWord

/-- The value as a float, if it is a number or a truth value. -/
def float? : Value → Option Float
  | .bool b => some (if b then 1.0 else 0.0)
  | .int n => some (Float.ofInt n)
  | .float x => some x
  | _ => .none

/-- Two numbers of one type. -/
inductive Pair where
  | ints (a b : Int)
  | floats (a b : Float)
  | texts (a b : String)
  deriving Repr, Inhabited

/-- Brings two values to one type: texts stay texts, next to a float both are floats, and
everything else is a whole number. -/
def pair? (a b : Value) : Option Pair :=
  match a, b, a.text?, b.text? with
  | _, _, some a, some b => some (.texts a b)
  | .float a, b, _, _ => b.float?.map fun b => .floats a b
  | a, .float b, _, _ => a.float?.map fun a => .floats a b
  | a, b, _, _ => a.int?.bind fun a => b.int?.map fun b => .ints a b

/-! ## §2 Order -/

mutual

/-- The order of values. -/
def order : Value → Value → Ordering
  | .bool a, .bool b => compare a.toNat b.toNat
  | .int a, .int b => compare a b
  | .int a, .float b => compare (floatPlace (Float.ofInt a)) (floatPlace b)
  | .float a, .int b => compare (floatPlace a) (floatPlace (Float.ofInt b))
  | .float a, .float b => compare (floatPlace a) (floatPlace b)
  | .text a, .text b | .text a, .markup b | .markup a, .text b | .markup a, .markup b =>
    compare a b
  | .list a, .list b => orderItems a b
  | .iterator a, .iterator b => orderItems a b
  | .group k a, .group l b => (k.order l).then (orderItems a b)
  | .dict a, .dict b => orderEntries a b
  | .handle a, .handle b => compare a.label b.label
  | .function a, .function b => compare a b
  | a, b => compare a.kind.rank b.kind.rank

/-- The order of lists: by the first items that differ, and a start before the whole. -/
def orderItems : List Value → List Value → Ordering
  | [], [] => .eq
  | [], _ :: _ => .lt
  | _ :: _, [] => .gt
  | a :: as, b :: bs => (a.order b).then (orderItems as bs)

/-- The order of dictionaries: by the first keys or values that differ. -/
def orderEntries : List (Value × Value) → List (Value × Value) → Ordering
  | [], [] => .eq
  | [], _ :: _ => .lt
  | _ :: _, [] => .gt
  | (k, v) :: as, (l, w) :: bs => ((k.order l).then (v.order w)).then (orderEntries as bs)

end

/-! ## §3 Dictionaries -/

/-- The entries with the value of a key set. -/
def putEntry (key value : Value) : List (Value × Value) → List (Value × Value)
  | [] => [(key, value)]
  | (k, v) :: rest =>
    match key.order k with
    | .lt => (key, value) :: (k, v) :: rest
    | .eq => (k, value) :: rest
    | .gt => (k, v) :: putEntry key value rest

/-- The value of a key. -/
def findEntry (key : Value) : List (Value × Value) → Option Value
  | [] => .none
  | (k, v) :: rest => if key.order k = .eq then some v else findEntry key rest

/-- A dictionary; a later entry replaces an earlier one with the same key. -/
def ofEntries (entries : List (Value × Value)) : Value :=
  .dict (entries.foldl (fun found entry => putEntry entry.1 entry.2 found) [])

/-- A dictionary with named entries. -/
def ofNamed (entries : List (String × Value)) : Value :=
  ofEntries (entries.map fun (name, value) => (.text name, value))

/-- The entries of a value that has some. -/
def entries? : Value → Option (List (Value × Value))
  | .dict entries => some entries
  | .arguments entries => some (entries.map fun (name, value) => (.text name, value))
  | .record entries _ => some (entries.map fun (name, value) => (.text name, value))
  | .definition d =>
    some [(.text "name", .text d.name),
      (.text "arguments", .list (d.params.map fun p => .text p.name)),
      (.text "caller", .bool d.usesCaller)]
  | _ => .none

/-! ## §4 Equality -/

mutual

/-- Are two values the same?  Numbers and truth values are compared by what they count. -/
def same : Value → Value → Bool
  | .undefined, .undefined => true
  | .none, .none => true
  | .list a, .list b => sameItems a b
  | .list a, .iterator b => sameItems a b
  | .iterator a, .list b => sameItems a b
  | .iterator a, .iterator b => sameItems a b
  | .group k a, .group l b => k.same l && sameItems a b
  | .dict a, b =>
    match b.entries? with
    | some b => a.length == b.length && sameEntries a b
    | .none => false
  | .arguments a, b =>
    match b.entries? with
    | some b => a.length == b.length && sameNamed a b
    | .none => false
  | .record a _, b =>
    match b.entries? with
    | some b => a.length == b.length && sameNamed a b
    | .none => false
  | .scope a, .scope b => a == b
  | .loop a, .loop b => a == b
  | .definition a, .definition b => a.cell == b.cell && a.name == b.name && a.file == b.file
  | .function a, .function b => a == b
  | .handle a, .handle b => a.label == b.label
  | a, b =>
    match pair? a b with
    | some (.ints a b) => a == b
    | some (.floats a b) => a == b
    | some (.texts a b) => a == b
    | .none => false

def sameItems : List Value → List Value → Bool
  | [], [] => true
  | a :: as, b :: bs => a.same b && sameItems as bs
  | _, _ => false

def sameEntries : List (Value × Value) → List (Value × Value) → Bool
  | [], _ => true
  | (k, v) :: rest, other =>
    match findEntry k other with
    | some w => v.same w && sameEntries rest other
    | .none => false

def sameNamed : List (String × Value) → List (Value × Value) → Bool
  | [], _ => true
  | (k, v) :: rest, other =>
    match findEntry (.text k) other with
    | some w => v.same w && sameNamed rest other
    | .none => false

end

/-! ## §5 Text -/

mutual

/-- A value inside of a list or dictionary: texts stand between quotes. -/
def inner : Value → String
  | .undefined => "undefined"
  | .none => "None"
  | .bool b => if b then "True" else "False"
  | .int n => toString n
  | .float x => Decimal.Layout.plain.write x
  | .text s | .markup s => Text.displayQuoted s
  | .list items | .iterator items => "[" ++ Text.join ", " (innerItems items) ++ "]"
  | .group key items => "[" ++ key.inner ++ ", [" ++ Text.join ", " (innerItems items) ++ "]]"
  | .dict entries => "\x7b" ++ Text.join ", " (innerEntries entries) ++ "\x7d"
  | .arguments entries => "\x7b" ++ Text.join ", " (innerNamed entries) ++ "\x7d"
  | .record _ label => label
  | .scope _ | .loop _ => ""
  | .definition d => "<macro " ++ d.name ++ ">"
  | .function name => name
  | .handle h => h.label

def innerItems : List Value → List String
  | [] => []
  | item :: rest => item.inner :: innerItems rest

def innerEntries : List (Value × Value) → List String
  | [] => []
  | (key, value) :: rest => (key.inner ++ ": " ++ value.inner) :: innerEntries rest

def innerNamed : List (String × Value) → List String
  | [] => []
  | (key, value) :: rest => (Text.displayQuoted key ++ ": " ++ value.inner) :: innerNamed rest

end

/-- What is written for a value. -/
def write : Value → String
  | .undefined => ""
  | .text s | .markup s => s
  | v => v.inner

/-- The text with the characters escaped that mean something in HTML. -/
def escapeText (s : String) : String :=
  String.join (s.toList.map fun
    | '<' => "&lt;"
    | '>' => "&gt;"
    | '&' => "&amp;"
    | '"' => "&quot;"
    | '\'' => "&#x27;"
    | '/' => "&#x2f;"
    | c => String.singleton c)

/-- What is written for a value where texts are escaped.  What holds no text needs no escape. -/
def escaped (v : Value) : String :=
  match v with
  | .markup s => s
  | .undefined | .none | .bool _ | .int _ | .float _ => v.write
  | v => escapeText v.write

/-- Some parts between brackets, each on a line of its own after a wider margin. -/
def prettyBetween (margin opening closing : String) (parts : List String) : String :=
  if parts.isEmpty then opening ++ closing
  else
    opening ++ "\n" ++ String.join (parts.map fun part => margin ++ "    " ++ part ++ ",\n") ++
      margin ++ closing

mutual

/-- A value over several lines, all but the first of them after a margin. -/
def pretty (margin : String) : Value → String
  | .list items | .iterator items =>
    prettyBetween margin "[" "]" (prettyItems (margin ++ "    ") items)
  | .group key items =>
    prettyBetween margin "[" "]"
      [key.pretty (margin ++ "    "),
        prettyBetween (margin ++ "    ") "[" "]" (prettyItems (margin ++ "        ") items)]
  | .dict entries =>
    prettyBetween margin "\x7b" "\x7d" (prettyEntries (margin ++ "    ") entries)
  | .arguments entries =>
    prettyBetween margin "\x7b" "\x7d" (prettyNamed (margin ++ "    ") entries)
  | v => v.inner

def prettyItems (margin : String) : List Value → List String
  | [] => []
  | item :: rest => item.pretty margin :: prettyItems margin rest

def prettyEntries (margin : String) : List (Value × Value) → List String
  | [] => []
  | (key, value) :: rest =>
    (key.pretty margin ++ ": " ++ value.pretty margin) :: prettyEntries margin rest

def prettyNamed (margin : String) : List (String × Value) → List String
  | [] => []
  | (key, value) :: rest =>
    (Text.displayQuoted key ++ ": " ++ value.pretty margin) :: prettyNamed margin rest

end

/-! ## §6 Contents -/

/-- Does the value count as true? -/
def isTrue : Value → Bool
  | .undefined | .none => false
  | .bool b => b
  | .int n => n != 0
  | .float x => x != 0.0
  | .text s | .markup s => !s.isEmpty
  | .list items | .iterator items => !items.isEmpty
  | .dict entries => !entries.isEmpty
  | .arguments entries => !entries.isEmpty
  | .record entries _ => !entries.isEmpty
  | .group _ _ | .scope _ | .loop _ | .definition _ | .function _ | .handle _ => true

/-- The items of a value: characters, items or keys. -/
def items? : Value → Option (List Value)
  | .undefined | .none => some []
  | .text s | .markup s => some (s.toList.map fun c => .text (String.singleton c))
  | .list items | .iterator items => some items
  | .group key items => some [key, .iterator items]
  | v => v.entries?.map fun entries => entries.map (·.1)

/-- The number of items of a value that has some. -/
def length? : Value → Option Nat
  | .undefined | .none => .none
  | v => v.items?.map (·.length)

/-- The position of an index, which counts from the end if it is negative. -/
def position? (length : Nat) (index : Int) : Option Nat :=
  if 0 ≤ index then some index.toNat
  else if -(length : Int) ≤ index then some (index + length).toNat
  else .none

/-- What a key finds in a value, if anything. -/
def find? (v key : Value) : Option Value :=
  let at? (items : List Value) : Option Value :=
    key.word?.bind fun index => (position? items.length index).bind fun i => items[i]?
  match v with
  | .list items | .iterator items => at? items
  | .text s | .markup s => at? (s.toList.map fun c => .text (String.singleton c))
  | .group common items =>
    match key.text? with
    | some "grouper" => some common
    | some "list" => some (.iterator items)
    | _ => at? [common, .iterator items]
  | v => v.entries?.bind (findEntry key)

end Value

end SqlWorkflow.Template
