import SqlWorkflow.Json.Basic
import SqlWorkflow.Json.Token

/-!
# Reading JSON text

The tokens of a text are consumed one by one.  Between two tokens the reader is in a `State`: it
knows which containers are open, what is already in them, and what may come next.  At a token that
may not come next, the document that is under construction gets a fault in the place of what was
expected, and everything read so far is kept.
-/

namespace SqlWorkflow.Json

/-- A container one of whose values is being read.  What is already in it stands in reverse. -/
inductive Frame where
  | item (done : List Doc)
  | member (done : List (Doc × Doc)) (name : String)
  deriving Repr, Inhabited

/-- Where the reader stands between two tokens; `outer` are the open containers, innermost
first. -/
inductive State where
  /-- A value comes next. -/
  | nextValue (outer : List Frame)
  /-- A value or the end of the sequence comes next. -/
  | firstItem (outer : List Frame)
  /-- A comma or the end of the sequence comes next. -/
  | afterItem (done : List Doc) (outer : List Frame)
  /-- A name or the end of the map comes next. -/
  | firstName (outer : List Frame)
  /-- A name comes next. -/
  | nextName (done : List (Doc × Doc)) (outer : List Frame)
  /-- A colon comes next. -/
  | colon (done : List (Doc × Doc)) (name : String) (outer : List Frame)
  /-- A comma or the end of the map comes next. -/
  | afterMember (done : List (Doc × Doc)) (outer : List Frame)
  /-- The whole document has been read; nothing comes next. -/
  | finished (doc : Doc)
  /-- Reading has stopped. -/
  | stopped (reading : Reading)
  deriving Repr, Inhabited

namespace State

/-- A value is complete: it becomes part of the innermost open container. -/
def deliver (doc : Doc) : List Frame → State
  | [] => .finished doc
  | .item done :: outer => .afterItem (doc :: done) outer
  | .member done name :: outer => .afterMember ((.text name, doc) :: done) outer

/-- The document when all open containers end with the value `doc`. -/
def closeAll (doc : Doc) : List Frame → Doc
  | [] => doc
  | .item done :: outer => closeAll (.seq (doc :: done).reverse) outer
  | .member done name :: outer => closeAll (.map ((.text name, doc) :: done).reverse) outer

/-- The document when the text breaks off or goes wrong here. -/
def broken : State → Reading
  | .nextValue outer => ⟨closeAll .fault outer, false⟩
  | .firstItem outer => ⟨closeAll (.seq [.fault]) outer, false⟩
  | .afterItem done outer => ⟨closeAll (.seq (.fault :: done).reverse) outer, false⟩
  | .firstName outer => ⟨closeAll (.map [(.fault, .fault)]) outer, false⟩
  | .nextName done outer => ⟨closeAll (.map ((.fault, .fault) :: done).reverse) outer, false⟩
  | .colon done name outer => ⟨closeAll (.map ((.text name, .fault) :: done).reverse) outer, false⟩
  | .afterMember done outer => ⟨closeAll (.map ((.fault, .fault) :: done).reverse) outer, false⟩
  | .finished doc => ⟨doc, false⟩
  | .stopped reading => reading

/-- A value starts with this token. -/
def start (state : State) (outer : List Frame) : Token → State
  | .null => deliver .null outer
  | .bool b => deliver (.bool b) outer
  | .num n => deliver (.num n) outer
  | .str s => deliver (.text s) outer
  | .openBracket => .firstItem outer
  | .openBrace => .firstName outer
  | _ => .stopped state.broken

/-- The state after one more token. -/
def next (state : State) (token : Token) : State :=
  match state, token with
  | .nextValue outer, token => start state outer token
  | .firstItem outer, .closeBracket => deliver (.seq []) outer
  | .firstItem outer, token => start state (.item [] :: outer) token
  | .afterItem done outer, .comma => .nextValue (.item done :: outer)
  | .afterItem done outer, .closeBracket => deliver (.seq done.reverse) outer
  | .firstName outer, .closeBrace => deliver (.map []) outer
  | .firstName outer, .str name => .colon [] name outer
  | .nextName done outer, .str name => .colon done name outer
  | .colon done name outer, .colon => .nextValue (.member done name :: outer)
  | .afterMember done outer, .comma => .nextName done outer
  | .afterMember done outer, .closeBrace => deliver (.map done.reverse) outer
  | .stopped reading, _ => .stopped reading
  | state, _ => .stopped state.broken

/-- The document when the text ends here. -/
def finish : State → Reading
  | .finished doc => ⟨doc, true⟩
  | state => state.broken

end State

/-- The document of a token list. -/
def ofTokens (tokens : List Token) : Reading :=
  (tokens.foldl State.next (.nextValue [])).finish

/-- One container more than may be read inside of one another. -/
def depthLimit : Nat := 128

/-- The document that the characters of a JSON text hold. -/
def readChars (cs : List Char) : Reading :=
  let reading := ofTokens (tokens cs)
  { reading with doc := reading.doc.limited (depthLimit - 1) }

/-- The document that a JSON text holds. -/
def read (text : String) : Reading := readChars text.toList

/-- The value of a JSON text, unless the text is malformed. -/
def parse? (text : String) : Option Json :=
  let reading := read text
  if reading.complete then ofDoc? reading.doc else none

end SqlWorkflow.Json
