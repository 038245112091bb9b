/-!
# Places in a YAML text

A cursor is what is left of a text together with its place: how many characters and lines come
before it, and how many characters of its own line.
-/

namespace SqlWorkflow.Yaml

/-- A place in a text and the text from there on. -/
structure Cursor where
  rest : List Char
  index : Nat := 0
  line : Nat := 0
  column : Nat := 0
  deriving Repr, Inhabited

/-- Is the character a blank or a tab? -/
def isGap (c : Char) : Bool := c == ' ' || c == '\t'

/-- Does the character end a line? -/
def isBreak (c : Char) : Bool :=
  c == '\r' || c == '\n' || c == '\x85' || c == '\u2028' || c == '\u2029'

/-- Does the text end, or go on with a character that satisfies `p`? -/
def endsOr (p : Char → Bool) : List Char → Bool
  | [] => true
  | c :: _ => p c

/-- Is the end of the text or of a word here? -/
def atWordEnd : List Char → Bool := endsOr fun c => isGap c || isBreak c

/-- Is the end of the text or of a line here? -/
def atLineEnd : List Char → Bool := endsOr isBreak

namespace Cursor

/-- Moves over `n` characters of the line. -/
def skip (n : Nat) (c : Cursor) : Cursor :=
  { c with rest := c.rest.drop n, index := c.index + n, column := c.column + n }

/-- Moves over the characters of the line that satisfy `p`. -/
def skipWhile (p : Char → Bool) (c : Cursor) : Cursor := c.skip (c.rest.takeWhile p).length

/-- The text of a line break, and how many characters it takes.  Most line breaks are read as a
line feed. -/
def breakText : List Char → List Char × Nat
  | '\r' :: '\n' :: _ => (['\n'], 2)
  | '\u2028' :: _ => (['\u2028'], 1)
  | '\u2029' :: _ => (['\u2029'], 1)
  | c :: _ => if isBreak c then (['\n'], 1) else ([], 0)
  | [] => ([], 0)

/-- Moves over a line break, if there is one, and gives its text. -/
def readBreak (c : Cursor) : List Char × Cursor :=
  let (text, n) := breakText c.rest
  if n = 0 then ([], c)
  else (text, ⟨c.rest.drop n, c.index + n, c.line + 1, 0⟩)

/-- Is a line of the given mark here: three dashes or three dots at the start of a line? -/
def atMark (mark : List Char) (c : Cursor) : Bool :=
  c.column == 0 && c.rest.take 3 == mark && atWordEnd (c.rest.drop 3)

/-- Does a line here start or end a document? -/
def atDocumentMark (c : Cursor) : Bool :=
  c.atMark ['-', '-', '-'] || c.atMark ['.', '.', '.']

end Cursor

end SqlWorkflow.Yaml
