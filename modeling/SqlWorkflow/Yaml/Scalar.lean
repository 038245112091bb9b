import SqlWorkflow.Document.Word
import SqlWorkflow.Yaml.Cursor

/-!
# Scalars of YAML texts

A scalar is written plainly, between quotes, or as a block of lines.  In the first two forms a
line break stands for a blank, and several line breaks for all but the first of them.
-/

namespace SqlWorkflow.Yaml

/-! ## §1 Gaps -/

/-- The blanks and line breaks between two words of a scalar. -/
structure Gap where
  /-- Blanks before the first line break. -/
  blanks : List Char := []
  /-- The first line break; empty if it is escaped. -/
  first : Option (List Char) := none
  /-- All further line breaks. -/
  more : List Char := []
  deriving Repr, Inhabited

namespace Gap

/-- What a gap stands for. -/
def text (g : Gap) : List Char :=
  match g.first with
  | none => g.blanks
  | some ['\n'] => if g.more.isEmpty then [' '] else g.more
  | some br => br ++ g.more

/-- Reads blanks and line breaks.  After a line break no tab may stand before column `margin`.
At most `fuel` characters are read. -/
def scan (margin : Nat) (g : Gap) (c : Cursor) : Nat → Option (Gap × Cursor)
  | 0 => some (g, c)
  | fuel + 1 =>
    match c.rest with
    | [] => some (g, c)
    | x :: _ =>
      if isGap x then
        if g.first.isSome && c.column < margin && x == '\t' then none
        else
          let g := if g.first.isSome then g else { g with blanks := g.blanks ++ [x] }
          scan margin g (c.skip 1) fuel
      else if isBreak x then
        let (text, c) := c.readBreak
        let g := match g.first with
          | none => { g with first := some text }
          | some _ => { g with more := g.more ++ text }
        scan margin g c fuel
      else some (g, c)

end Gap

/-! ## §2 Plain scalars -/

/-- The end of a word of a plain scalar; `none` if a colon stands where it must not. -/
def plainWord (inFlow : Bool) : List Char → Option (List Char)
  | [] => some []
  | c :: cs =>
    if isGap c || isBreak c then some []
    else if inFlow && c == ':' &&
        (cs.head?.any fun d => [',', '?', '[', ']', '\x7b', '\x7d'].contains d)
    then none
    else if c == ':' && atWordEnd cs then some []
    else if inFlow && [',', '[', ']', '\x7b', '\x7d'].contains c then some []
    else (plainWord inFlow cs).map (c :: ·)

/-- A plain scalar, where it ends, and whether it spans a line break.  Its further lines are
indented by at least `margin`; `gap` is what stands before the next word. -/
def scanPlain (inFlow : Bool) (margin : Nat) (text : List Char) (gap : Gap) (stop c : Cursor) :
    Nat → Option (List Char × Cursor × Bool)
  | 0 => some (text, stop, gap.first.isSome)
  | fuel + 1 =>
    if c.atDocumentMark || c.rest.head? = some '#' then some (text, c, gap.first.isSome)
    else do
      let word ← plainWord inFlow c.rest
      let text' := if word.isEmpty then text else text ++ gap.text ++ word
      let gap := if word.isEmpty then gap else {}
      let c := c.skip word.length
      if !(c.rest.head?.any fun d => isGap d || isBreak d) then
        some (text', c, gap.first.isSome)
      else
        let (gap, c') ← Gap.scan margin gap c c.rest.length
        if !inFlow && c'.column < margin then some (text', c', gap.first.isSome)
        else scanPlain inFlow margin text' gap c c' fuel

/-! ## §3 Quoted scalars -/

/-- The character that a one-letter escape stands for. -/
def escaped? (c : Char) : Option Char :=
  match c with
  | '0' => some '\x00'
  | 'a' => some '\x07'
  | 'b' => some '\x08'
  | 't' => some '\t'
  | '\t' => some '\t'
  | 'n' => some '\n'
  | 'v' => some '\x0b'
  | 'f' => some '\x0c'
  | 'r' => some '\r'
  | 'e' => some '\x1b'
  | ' ' => some ' '
  | '"' => some '"'
  | '/' => some '/'
  | '\\' => some '\\'
  | 'N' => some '\x85'
  | '_' => some '\xa0'
  | 'L' => some '\u2028'
  | 'P' => some '\u2029'
  | _ => none

/-- How many hexadecimal digits follow the letter of an escape. -/
def codeLength? (c : Char) : Option Nat :=
  match c with
  | 'x' => some 2
  | 'u' => some 4
  | 'U' => some 8
  | _ => none

/-- The character that an escape stands for, and how many characters follow the backslash. -/
def escape? : List Char → Option (Char × Nat)
  | [] => none
  | c :: cs =>
    match codeLength? c with
    | none => (escaped? c).map (·, 1)
    | some n => do
      let digits := cs.take n
      if digits.length < n then none
      else
        let code ← Word.natural? 16 digits
        if (0xD800 ≤ code && code ≤ 0xDFFF) || 0x10FFFF < code then none
        else some (Char.ofNat code, n + 1)

/-- What ends a word of a quoted scalar. -/
inductive QuotedStop where
  | gap
  | closing
  | escapedBreak
  deriving DecidableEq, Repr

/-- A word of a quoted scalar, and what ends it. -/
def quotedWord (double : Bool) (text : List Char) (c : Cursor) :
    Nat → Option (List Char × QuotedStop × Cursor)
  | 0 => none
  | fuel + 1 =>
    match c.rest with
    | [] => some (text, .gap, c)
    | x :: rest =>
      if isGap x || isBreak x then some (text, .gap, c)
      else if double then
        if x == '"' then some (text, .closing, c.skip 1)
        else if x == '\\' then
          if rest.head?.any isBreak then some (text, .escapedBreak, c.skip 1)
          else do
            let (char, n) ← escape? rest
            quotedWord double (text ++ [char]) (c.skip (n + 1)) fuel
        else quotedWord double (text ++ [x]) (c.skip 1) fuel
      else
        match x, rest with
        | '\'', '\'' :: _ => quotedWord double (text ++ ['\'']) (c.skip 2) fuel
        | '\'', _ => some (text, .closing, c.skip 1)
        | x, _ => quotedWord double (text ++ [x]) (c.skip 1) fuel

/-- A quoted scalar after its opening quote, and where it ends. -/
def scanQuoted (double : Bool) (text : List Char) (c : Cursor) : Nat → Option (List Char × Cursor)
  | 0 => none
  | fuel + 1 =>
    if c.atDocumentMark || c.rest.isEmpty then none
    else do
      let (text, stop, c) ← quotedWord double text c (c.rest.length + 1)
      match stop with
      | .closing => some (text, c)
      | .gap =>
        let (gap, c) ← Gap.scan 0 {} c c.rest.length
        scanQuoted double (text ++ gap.text) c fuel
      | .escapedBreak =>
        let (gap, c) ← Gap.scan 0 { first := some [] } c.readBreak.2 c.rest.length
        scanQuoted double (text ++ gap.text) c fuel

/-! ## §4 Block scalars -/

/-- What becomes of the line breaks at the end of a block. -/
inductive Chomping where
  | strip
  | clip
  | keep
  deriving DecidableEq, Repr

/-- The header of a block: chomping and indentation in either order. -/
def blockHeader (c : Cursor) : Option (Chomping × Option Nat × Cursor) :=
  let chomping? (c : Cursor) : Chomping × Cursor :=
    match c.rest with
    | '+' :: _ => (.keep, c.skip 1)
    | '-' :: _ => (.strip, c.skip 1)
    | _ => (.clip, c)
  let indent? (c : Cursor) : Option (Option Nat × Cursor) :=
    match c.rest with
    | d :: _ =>
      if d == '0' then none
      else if d.isDigit then some (some (d.toNat - '0'.toNat), c.skip 1)
      else some (none, c)
    | [] => some (none, c)
  let (chomping, next) := chomping? c
  -- Without chomping in front there may be some behind the indentation.
  if next.index = c.index then do
    let (indent, c) ← indent? c
    if indent.isSome then
      let (chomping, c) := chomping? c
      some (chomping, indent, c)
    else some (.clip, none, c)
  else do
    let (indent, c) ← indent? next
    some (chomping, indent, c)

/-- Reads empty lines and the indentation of the next line that is not empty.  Where the
indentation is not known yet, `widest` is the widest one seen; a tab must not take its place. -/
def blockBreaks (indent : Option Nat) (widest : Nat) (breaks : List Char) (c : Cursor) :
    Nat → Option (Nat × List Char × Cursor)
  | 0 => some (widest, breaks, c)
  | fuel + 1 =>
    let ahead := indent.all fun n => c.column < n
    let room := match indent with
      | some n => n - c.column
      | none => c.rest.length
    let c := c.skip ((c.rest.take room).takeWhile (· == ' ')).length
    let widest := max widest c.column
    let ahead := ahead && indent.all fun n => c.column < n
    if ahead && c.rest.head? = some '\t' then none
    else if c.rest.head?.any isBreak then
      let (text, c) := c.readBreak
      blockBreaks indent widest (breaks ++ text) c fuel
    else some (widest, breaks, c)

/-- The lines of a block: its text so far, the line break before the next line, and the empty
lines before it. -/
structure Lines where
  text : List Char := []
  leading : List Char := []
  trailing : List Char := []
  /-- Did the line before start with a blank? -/
  indented : Bool := false

/-- Reads the lines of a block that is indented by `indent`. -/
def blockLines (folded : Bool) (indent : Nat) (s : Lines) (c : Cursor) :
    Nat → Option (Lines × Cursor)
  | 0 => some (s, c)
  | fuel + 1 =>
    if c.column = indent && !c.rest.isEmpty then do
      let blank := c.rest.head?.any isGap
      let joined :=
        if folded && s.leading.head? = some '\n' && !s.indented && !blank then
          if s.trailing.isEmpty then [' '] else []
        else s.leading
      let line := c.rest.takeWhile fun x => !isBreak x
      let (leading, c) := (c.skip line.length).readBreak
      let (_, trailing, c) ← blockBreaks (some indent) 0 [] c (c.rest.length + 1)
      blockLines folded indent
        ⟨s.text ++ joined ++ s.trailing ++ line, leading, trailing, blank⟩ c fuel
    else some (s, c)

/-- A block scalar after its first character, in a block that is indented by `parent`. -/
def scanBlock (folded : Bool) (parent : Int) (c : Cursor) : Option (List Char × Cursor) := do
  let (chomping, increment, c) ← blockHeader c
  let c := c.skipWhile isGap
  let c := if c.rest.head? = some '#' then c.skipWhile (fun x => !isBreak x) else c
  if !atLineEnd c.rest then none
  else
    let c := c.readBreak.2
    let known := increment.map fun n => if 0 ≤ parent then parent.toNat + n else n
    let (widest, breaks, c) ← blockBreaks known 0 [] c (c.rest.length + 1)
    let indent := known.getD (max widest (max (parent + 1).toNat 1))
    let (s, c) ← blockLines folded indent { trailing := breaks } c (c.rest.length + 1)
    let ending := match chomping with
      | .strip => []
      | .clip => s.leading
      | .keep => s.leading ++ s.trailing
    some (s.text ++ ending, c)

end SqlWorkflow.Yaml
