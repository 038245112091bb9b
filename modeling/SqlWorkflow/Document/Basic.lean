/-!
# Documents

A document is what a reader of structured text makes of its input before anything is known about
the shape that the input should have.  A reader never fails: where the text stops being well
formed, the document holds a `fault`, and everything before the fault is kept.  Whoever reads the
document from front to back therefore meets an ill-shaped value before a later fault, and a fault
before a later ill-shaped value.
-/

namespace SqlWorkflow

/-- A number as written: a whole number of at most 64 bits, or a binary fraction. -/
inductive Number where
  | int (n : Int)
  | float (x : Float)
  deriving Repr, Inhabited

/-- How a scalar is written. -/
inductive ScalarForm where
  | plain
  /-- As a block of lines that are kept. -/
  | literal
  | other
  deriving DecidableEq, Repr, Inhabited

/-- The result of reading a structured text. -/
inductive Doc where
  /-- The text is malformed from here on. -/
  | fault
  | null
  | bool (b : Bool)
  | num (n : Number)
  | text (s : String)
  /-- An unquoted word; what it denotes depends on what is expected in its place. -/
  | word (s : String)
  /-- A scalar with a tag. -/
  | scalar (tag : String) (form : ScalarForm) (s : String)
  | seq (items : List Doc)
  | map (entries : List (Doc × Doc))
  /-- A container with a tag. -/
  | tagged (tag : String) (container : Doc)
  /-- A container inside of so many others that it can be skipped but not read. -/
  | tooDeep (container : Doc)
  deriving Repr, Inhabited

namespace Doc

mutual

/-- Does the document hold a fault anywhere? -/
def hasFault : Doc → Bool
  | .fault => true
  | .seq items => anyFault items
  | .map entries => anyEntryFault entries
  | .tagged _ container => container.hasFault
  | .tooDeep container => container.hasFault
  | _ => false

/-- Does one of the documents hold a fault? -/
def anyFault : List Doc → Bool
  | [] => false
  | item :: rest => item.hasFault || anyFault rest

/-- Does one of the keys or values hold a fault? -/
def anyEntryFault : List (Doc × Doc) → Bool
  | [] => false
  | (key, value) :: rest => key.hasFault || value.hasFault || anyEntryFault rest

end

mutual

/-- The document in which no more than `room` containers that stand inside one another can be
read. -/
def limited (room : Nat) : Doc → Doc
  | .seq items => if room = 0 then .tooDeep (.seq items) else .seq (allLimited (room - 1) items)
  | .map entries =>
    if room = 0 then .tooDeep (.map entries) else .map (entriesLimited (room - 1) entries)
  | .tagged tag container => .tagged tag (container.limited room)
  | doc => doc

def allLimited (room : Nat) : List Doc → List Doc
  | [] => []
  | item :: rest => item.limited room :: allLimited room rest

def entriesLimited (room : Nat) : List (Doc × Doc) → List (Doc × Doc)
  | [] => []
  | (key, value) :: rest => (key.limited room, value.limited room) :: entriesLimited room rest

end

/-- The container without its tag; a plain scalar of which there is nothing but a tag is a word. -/
def untagged : Doc → Doc
  | .tagged _ container => container
  | .scalar _ .plain "" => .word ""
  | doc => doc

end Doc

/-- What a reader makes of a whole text: the document at its start, and whether nothing follows
it. -/
structure Reading where
  doc : Doc
  complete : Bool := true
  deriving Repr, Inhabited

end SqlWorkflow
