import SqlWorkflow.Document.Word
import SqlWorkflow.Text.Blank
import SqlWorkflow.Text.Split

/-!
# Tokens of templates

Outside of `{{ … }}` and `{% … %}` a template is raw text.  Inside, it is a sequence of
words, constants and signs with blanks between them.  A tag that starts or ends with `-` removes
the blanks next to it; a comment is skipped, and between `raw` and `endraw` everything is raw text.

The tokens end with `Lexeme.broken` where the text cannot be read.
-/

namespace SqlWorkflow.Template

/-- An operator or a bracket. -/
inductive Sign where
  | plus | minus | star | stars | slash | slashes | percent | tilde | bar
  | dot | comma | colon | assign
  | equal | differs | below | belowOrEqual | above | aboveOrEqual
  | openParen | closeParen | openBracket | closeBracket | openBrace | closeBrace
  deriving DecidableEq, Repr, Inhabited

/-- What a token says. -/
inductive Lexeme where
  | raw (text : String)
  | openEmit | closeEmit | openTag | closeTag
  | word (name : String)
  | text (value : String)
  | int (n : Nat)
  | float (x : Float)
  | sign (s : Sign)
  /-- The text cannot be read from here on. -/
  | broken
  /-- A quoted text holds an unknown escape. -/
  | brokenEscape
  deriving Repr, Inhabited

/-- A token with the line on which it starts. -/
structure Token where
  lexeme : Lexeme
  line : Nat
  deriving Repr, Inhabited

namespace Token

/-! ## §1 Quoted texts -/

/-- The value of an octal escape: up to three octal digits, of which `first` is the first. -/
def octal (first : Char) (cs : List Char) : Option Char × List Char :=
  let more := (cs.take 2).takeWhile fun c => '0' ≤ c && c ≤ '7'
  let value? := (Word.natural? 8 (first :: more)).bind fun n =>
    if n < 256 then some (Char.ofNat n) else none
  (value?, cs.drop more.length)

/-- The characters that four hexadecimal digits after `\u` spell; a character outside the basic
plane is written as two such escapes. -/
def codeUnits : List Char → Option (Char × List Char)
  | a :: b :: c :: d :: rest =>
    match Word.natural? 16 [a, b, c, d] with
    | none => none
    | some first =>
      if 0xDC00 ≤ first && first ≤ 0xDFFF then none
      else if 0xD800 ≤ first && first ≤ 0xDBFF then
        match rest with
        | '\\' :: 'u' :: e :: f :: g :: h :: rest =>
          match Word.natural? 16 [e, f, g, h] with
          | some second =>
            if 0xDC00 ≤ second && second ≤ 0xDFFF then
              some (Char.ofNat (0x10000 + (first - 0xD800) * 0x400 + (second - 0xDC00)), rest)
            else none
          | none => none
        | _ => none
      else some (Char.ofNat first, rest)
  | _ => none

/-- The character that the text after a backslash stands for, and what follows. -/
def escape (c : Char) (cs : List Char) : Option (Char × List Char) :=
  match c with
  | '"' | '\\' | '/' | '\'' => some (c, cs)
  | 'b' => some ('\x08', cs)
  | 'f' => some ('\x0c', cs)
  | 'n' => some ('\n', cs)
  | 'r' => some ('\r', cs)
  | 't' => some ('\t', cs)
  | 'u' => codeUnits cs
  | 'x' =>
    match cs with
    | a :: b :: rest => (Word.natural? 16 [a, b]).map fun n => (Char.ofNat n, rest)
    | _ => none
  | _ =>
    if '0' ≤ c && c ≤ '7' then
      match octal c cs with
      | (some value, rest) => some (value, rest)
      | (none, _) => none
    else none

/-- The text that a quoted text stands for, with at most `fuel` characters. -/
def unescape : Nat → List Char → Option (List Char)
  | 0, _ => some []
  | _ + 1, [] => some []
  | fuel + 1, c :: cs =>
    if c = '\\' then
      match cs with
      | [] => none
      | e :: rest =>
        match escape e rest with
        | some (value, rest) => (unescape fuel rest).map (value :: ·)
        | none => none
    else (unescape fuel cs).map (c :: ·)

/-- The text up to its closing quote, which no backslash precedes, and what follows the quote. -/
def untilQuote (quote : Char) : List Char → Option (List Char × List Char)
  | [] => none
  | '\\' :: c :: cs => (untilQuote quote cs).map fun (text, rest) => ('\\' :: c :: text, rest)
  | c :: cs =>
    if c = quote then some ([], cs)
    else (untilQuote quote cs).map fun (text, rest) => (c :: text, rest)

/-! ## §2 Numbers -/

/-- How far a number has been read. -/
inductive NumberStage where
  /-- The digits of a base other than ten. -/
  | based
  | whole
  | places
  /-- After the letter that announces the power of ten. -/
  | powerMark
  | power
  deriving DecidableEq, Repr, Inhabited

/-- The stage after one more character; `none` if it does not belong to the number. -/
def NumberStage.next (hex : Bool) (stage : NumberStage) (c : Char) : Option NumberStage :=
  match stage with
  | .based =>
    if c.isDigit || c = '_' || (hex && (Word.digit? 16 c).isSome) then some .based else none
  | .whole =>
    if c.isDigit || c = '_' then some .whole
    else if c = '.' then some .places
    else if c = 'e' || c = 'E' then some .powerMark
    else none
  | .places =>
    if c.isDigit || c = '_' then some .places
    else if c = 'e' || c = 'E' then some .powerMark
    else none
  | .powerMark =>
    if c.isDigit || c = '+' || c = '-' then some .power
    else if c = '_' then some .powerMark
    else none
  | .power => if c.isDigit || c = '_' then some .power else none

/-- The characters of a number, the stage after them, and what follows. -/
def numberChars (hex : Bool) (stage : NumberStage) :
    List Char → List Char × NumberStage × List Char
  | [] => ([], stage, [])
  | c :: cs =>
    match stage.next hex c with
    | some stage =>
      let (chars, last, rest) := numberChars hex stage cs
      (c :: chars, last, rest)
    | none => ([], stage, c :: cs)

/-- Whole numbers need at most 128 bits. -/
def wholeLimit : Nat := Nat.pow 2 128

/-- The number that starts a text, and what follows it. -/
def number (cs : List Char) : Lexeme × List Char :=
  let base : Nat := match cs with
    | '0' :: c :: _ =>
      if c = 'x' || c = 'X' then 16
      else if c = 'o' || c = 'O' then 8
      else if c = 'b' || c = 'B' then 2
      else 10
    | _ => 10
  let (chars, stage, rest) :=
    if base = 10 then numberChars false .whole cs
    else numberChars (base = 16) .based (cs.drop 2)
  let digits := chars.filter (· != '_')
  let lexeme? : Option Lexeme :=
    if chars.getLast? = some '_' then none
    else if stage = .whole || stage = .based then
      ((Word.natural? base digits).filter (· < wholeLimit)).map .int
    else (Word.fraction? digits).map .float
  (lexeme?.getD .broken, rest)

/-! ## §3 Signs and words -/

/-- The longest sign that starts a text, and what follows it. -/
def sign? : List Char → Option (Sign × List Char)
  -- Signs of two characters come first, since most of them start with a sign of one.
  | '/' :: '/' :: cs => some (.slashes, cs)
  | '*' :: '*' :: cs => some (.stars, cs)
  | '=' :: '=' :: cs => some (.equal, cs)
  | '!' :: '=' :: cs => some (.differs, cs)
  | '>' :: '=' :: cs => some (.aboveOrEqual, cs)
  | '<' :: '=' :: cs => some (.belowOrEqual, cs)
  | '+' :: cs => some (.plus, cs)
  | '-' :: cs => some (.minus, cs)
  | '*' :: cs => some (.star, cs)
  | '/' :: cs => some (.slash, cs)
  | '%' :: cs => some (.percent, cs)
  | '~' :: cs => some (.tilde, cs)
  | '|' :: cs => some (.bar, cs)
  | '.' :: cs => some (.dot, cs)
  | ',' :: cs => some (.comma, cs)
  | ':' :: cs => some (.colon, cs)
  | '=' :: cs => some (.assign, cs)
  | '>' :: cs => some (.above, cs)
  | '<' :: cs => some (.below, cs)
  | '(' :: cs => some (.openParen, cs)
  | ')' :: cs => some (.closeParen, cs)
  | '[' :: cs => some (.openBracket, cs)
  | ']' :: cs => some (.closeBracket, cs)
  | '\x7b' :: cs => some (.openBrace, cs)
  | '\x7d' :: cs => some (.closeBrace, cs)
  | _ => none

/-- How many more brackets are open after a sign. -/
def balance : Sign → Int
  | .openParen | .openBracket | .openBrace => 1
  | .closeParen | .closeBracket | .closeBrace => -1
  | _ => 0

/-- May the character start a word? -/
def startsWord (c : Char) : Bool := c = '_' || c.isAlpha

/-- May the character stand inside a word? -/
def insideWord (c : Char) : Bool := c = '_' || c.isAlphanum

/-- The five characters that may stand between the tokens of a tag. -/
def isSpace (c : Char) : Bool :=
  c = ' ' || c = '\n' || c = '\t' || c = '\r' || c = '\x0c'

/-- The token at the start `c :: cs` of the text inside of a tag, the number of line ends in it,
and what follows it. -/
def scan (c : Char) (cs : List Char) : Lexeme × Nat × List Char :=
  match sign? (c :: cs) with
  | some (s, rest) => (.sign s, 0, rest)
  | none =>
    if c = '"' || c = '\'' then
      match untilQuote c cs with
      | some (quoted, rest) =>
        match unescape quoted.length quoted with
        | some text => (.text (String.ofList text), quoted.count '\n', rest)
        | none => (.brokenEscape, 0, rest)
      | none => (.broken, 0, [])
    else if c.isDigit then
      let (found, rest) := number (c :: cs)
      (found, 0, rest)
    else if startsWord c then
      (.word (String.ofList (c :: cs.takeWhile insideWord)), 0, cs.dropWhile insideWord)
    else (.broken, 0, [])

/-! ## §4 Tags -/

/-- What a tag is for. -/
inductive TagKind where
  | emit | tag | comment
  deriving DecidableEq, Repr, Inhabited

/-- The tag that starts a text, and what follows its opening. -/
def opening? : List Char → Option (TagKind × List Char)
  | '\x7b' :: '\x7b' :: cs => some (.emit, cs)
  | '\x7b' :: '%' :: cs => some (.tag, cs)
  | '\x7b' :: '#' :: cs => some (.comment, cs)
  | _ => none

/-- Does the text, which follows the opening of a tag, ask for removing blanks? -/
def trims : List Char → Bool
  | '-' :: _ => true
  | _ => false

/-- The text without the mark that says what happens to the blanks next to a tag. -/
def dropMark : List Char → List Char
  | '-' :: cs => cs
  | '+' :: cs => cs
  | cs => cs

/-- The raw text up to the next tag, and what follows it. -/
def rawText : List Char → List Char × List Char
  | [] => ([], [])
  | c :: cs =>
    if (opening? (c :: cs)).isSome then ([], c :: cs)
    else
      let (text, rest) := rawText cs
      (c :: text, rest)

/-- The characters that close a tag. -/
def TagKind.close : TagKind → List Char
  | .emit => ['\x7d', '\x7d']
  | .tag => ['%', '\x7d']
  | .comment => ['#', '\x7d']

/-- What follows the closing that starts a text, and whether it asks for removing the blanks after
it. -/
def closing? (kind : TagKind) : List Char → Option (Bool × List Char)
  | '-' :: cs => (Text.dropLead? kind.close cs).map (true, ·)
  | '+' :: cs => (Text.dropLead? kind.close cs).map (false, ·)
  | cs => (Text.dropLead? kind.close cs).map (false, ·)

/-- What follows a tag that holds one word only, and whether it asks for removing the blanks after
it. -/
def wordTag? (word : String) (cs : List Char) : Option (Bool × List Char) :=
  (Text.dropLead? word.toList (cs.dropWhile isSpace)).bind fun rest =>
    closing? .tag (rest.dropWhile isSpace)

/-- The text up to the tag that ends a raw stretch, whether that tag asks for removing the blanks
before and after it, and what follows it. -/
def untilEndRaw : List Char → Option (List Char × Bool × Bool × List Char)
  | [] => none
  | c :: cs =>
    let found? := match c, cs with
      | '\x7b', '%' :: tag =>
        (wordTag? "endraw" (dropMark tag)).map fun (trimsAfter, rest) =>
          ([], trims tag, trimsAfter, rest)
      | _, _ => none
    match found? with
    | some found => some found
    | none =>
      (untilEndRaw cs).map fun (text, before, after, rest) => (c :: text, before, after, rest)

/-! ## §5 The tokens of a template -/

/-- Where the reading of a template stands. -/
inductive Mode where
  /-- Outside of all tags; leading blanks are removed if the tag before asks for it. -/
  | outside (trimming : Bool)
  /-- Inside of a tag, with the number of brackets that are open. -/
  | inside (kind : TagKind) (depth : Int)
  deriving DecidableEq, Repr, Inhabited

/-- A reading position: the mode, the line, the line of the last token, and the text ahead. -/
structure Cursor where
  mode : Mode
  line : Nat
  lastLine : Nat
  ahead : List Char
  deriving Repr, Inhabited

namespace Cursor

/-- The position after some line ends, at the text `rest`. -/
def moveTo (c : Cursor) (mode : Mode) (breaks : Nat) (rest : List Char) : Cursor :=
  { c with mode, line := c.line + breaks, ahead := rest }

/-- A token that holds some line ends, and the position after it. -/
def emit (c : Cursor) (lexeme : Lexeme) (mode : Mode) (breaks : Nat) (rest : List Char) :
    List Token × Cursor :=
  ([⟨lexeme, c.line⟩], { c.moveTo mode breaks rest with lastLine := c.line })

/-- The number of line ends between the position and the text `rest` further on. -/
def breaksUntil (c : Cursor) (rest : List Char) : Nat :=
  c.ahead.count '\n' - rest.count '\n'

/-- The end of the reading, because the text cannot be read. -/
def stop (c : Cursor) (lexeme : Lexeme) : List Token × Cursor :=
  ([⟨lexeme, c.lastLine⟩], { c with ahead := [] })

/-- A stretch of raw text whose opening tag ends before `body`. -/
def stepRaw (c : Cursor) (trimsStart : Bool) (body : List Char) : List Token × Cursor :=
  match untilEndRaw body with
  | some (text, trimsEnd, trimsAfter, rest) =>
    let text := if trimsStart then Text.trimStart Text.isBlank text else text
    let text := if trimsEnd then Text.trimEnd Text.isBlank text else text
    let c := c.moveTo c.mode (c.breaksUntil body) body
    c.emit (.raw (String.ofList text)) (.outside trimsAfter) (c.breaksUntil rest) rest
  | none => c.stop .broken

/-- A step outside of all tags. -/
def stepOutside (c : Cursor) : List Token × Cursor :=
  match opening? c.ahead with
  | some (.comment, rest) =>
    match Text.cutAt? TagKind.comment.close (dropMark rest) with
    | some (body, rest) =>
      ([], c.moveTo (.outside (body.getLast? == some '-')) (body.count '\n') rest)
    | none => c.stop .broken
  | some (.emit, rest) => c.emit .openEmit (.inside .emit 0) 0 (dropMark rest)
  | some (.tag, rest) =>
    match wordTag? "raw" (dropMark rest) with
    | some (trimsStart, body) => c.stepRaw trimsStart body
    | none => c.emit .openTag (.inside .tag 0) 0 (dropMark rest)
  | none =>
    let (text, rest) := rawText c.ahead
    let kept := match opening? rest with
      | some (_, tag) => if trims tag then Text.trimEnd Text.isBlank text else text
      | none => text
    if kept.isEmpty then ([], c.moveTo (.outside false) (text.count '\n') rest)
    else c.emit (.raw (String.ofList kept)) (.outside false) (text.count '\n') rest

/-- A step inside of a tag, at the text `ch :: cs`. -/
def stepInside (c : Cursor) (kind : TagKind) (depth : Int) (ch : Char) (cs : List Char) :
    List Token × Cursor :=
  if isSpace ch then
    ([], c.moveTo c.mode (((ch :: cs).takeWhile isSpace).count '\n') (cs.dropWhile isSpace))
  else
    match if depth = 0 then closing? kind (ch :: cs) else none with
    | some (trimsAfter, rest) =>
      c.emit (if kind = .emit then .closeEmit else .closeTag) (.outside trimsAfter) 0 rest
    | none =>
      match scan ch cs with
      | (.broken, _, _) => c.stop .broken
      | (.brokenEscape, _, _) => c.stop .brokenEscape
      | (.sign s, _, rest) => c.emit (.sign s) (.inside kind (depth + balance s)) 0 rest
      | (found, breaks, rest) => c.emit found (.inside kind depth) breaks rest

/-- One step of the reading: at most one token, and the position after it. -/
def step (c : Cursor) : List Token × Cursor :=
  match c.mode, c.ahead with
  | _, [] => ([], c)
  | .outside true, ahead =>
    ([], c.moveTo (.outside false) ((ahead.takeWhile Text.isBlank).count '\n')
      (ahead.dropWhile Text.isBlank))
  | .outside false, _ => c.stepOutside
  | .inside kind depth, ch :: cs => c.stepInside kind depth ch cs

/-- The tokens ahead, found in at most `fuel` steps. -/
def tokens : Nat → Cursor → List Token
  | 0, _ => []
  | fuel + 1, c =>
    if c.ahead.isEmpty then []
    else
      let (found, next) := c.step
      found ++ tokens fuel next

end Cursor

/-- The text of a template without the line end that closes its last line. -/
def withoutLastBreak (cs : List Char) : List Char :=
  match cs.getLast? with
  | some '\n' =>
    let cs := cs.dropLast
    if cs.getLast? = some '\r' then cs.dropLast else cs
  | some '\r' => cs.dropLast
  | _ => cs

/-- The tokens of a template.  Each step but the removal of blanks uses up a character, and no two
removals follow each other, so twice as many steps as there are characters are enough. -/
def ofTemplate (source : String) : List Token :=
  let cs := withoutLastBreak source.toList
  Cursor.tokens (2 * cs.length + 1) ⟨.outside false, 1, 1, cs⟩

end Token

end SqlWorkflow.Template
