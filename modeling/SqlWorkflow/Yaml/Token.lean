import SqlWorkflow.Yaml.Scalar

/-!
# Tokens of YAML texts

The structure of a YAML text comes from its indentation.  Whether a scalar is a key is known only
when the colon after it is read, so the tokens that make it a key are put in front of it later;
until then the scalar is a *candidate*, and it stays one for at most one line.

A text that goes wrong has the tokens up to that place, less those that follow a candidate.
-/

namespace SqlWorkflow.Yaml

/-- A token of a YAML text. -/
inductive Token where
  /-- A directive that says which version of the format the text has. -/
  | version (major minor : Nat)
  /-- A directive that says what a handle of tags stands for. -/
  | declaration (handle tags : String)
  | documentStart
  | documentEnd
  | blockSequenceStart
  | blockMappingStart
  | blockEnd
  | flowSequenceStart
  | flowSequenceEnd
  | flowMappingStart
  | flowMappingEnd
  | blockEntry
  | flowEntry
  | key
  | value
  | aliasOf (name : String)
  | anchor (name : String)
  /-- A tag that starts with what the handle stands for; without a handle it stands for itself. -/
  | tag (handle suffix : String)
  | scalar (s : String) (form : ScalarForm)
  | streamEnd
  deriving DecidableEq, Repr, Inhabited

/-- A token that a colon may still make a key. -/
structure Candidate where
  /-- The position of the token among all tokens. -/
  position : Nat
  required : Bool
  index : Nat
  line : Nat
  column : Nat
  deriving Repr, Inhabited

/-- The state of a scan. -/
structure Scan where
  cursor : Cursor
  tokens : Array Token := #[]
  /-- The indentation of the current block, -1 outside all blocks, and those around it. -/
  indent : Int := -1
  indents : List Int := []
  /-- May a key start here? -/
  keyAllowed : Bool := true
  /-- The candidate of the current flow level and those of the levels around it. -/
  candidate : Option Candidate := none
  outer : List (Option Candidate) := []
  deriving Inhabited

namespace Scan

/-- Is the scan inside brackets or braces? -/
def inFlow (s : Scan) : Bool := !s.outer.isEmpty

/-- Adds a token at the end. -/
def push (t : Token) (s : Scan) : Scan := { s with tokens := s.tokens.push t }

/-- Adds a token before the one at `position`. -/
def insertAt (position : Nat) (t : Token) (s : Scan) : Scan :=
  { s with tokens := s.tokens.insertIdxIfInBounds position t }

/-- Moves the cursor. -/
def move (f : Cursor → Cursor) (s : Scan) : Scan := { s with cursor := f s.cursor }

/-- Moves over blanks, comments and line breaks.  A tab is a blank only where no key may start. -/
def skipGaps (s : Scan) : Nat → Scan
  | 0 => s
  | fuel + 1 =>
    let tabs := s.inFlow || !s.keyAllowed
    let c := s.cursor.skipWhile fun x => x == ' ' || (tabs && x == '\t')
    let c := if c.rest.head? = some '#' then c.skipWhile (fun x => !isBreak x) else c
    if c.rest.head?.any isBreak then
      let s := { s with cursor := c.readBreak.2, keyAllowed := s.keyAllowed || !s.inFlow }
      skipGaps s fuel
    else { s with cursor := c }

/-- Is the candidate on an earlier line or too far away? -/
def isStale (c : Cursor) (k : Candidate) : Bool :=
  k.line < c.line || k.index + 1024 < c.index

/-- Gives up the candidates that are on an earlier line; a required one must not be given up. -/
def dropStale (s : Scan) : Option Scan :=
  let check (k : Option Candidate) : Option (Option Candidate) :=
    match k with
    | none => some none
    | some k =>
      if isStale s.cursor k then (if k.required then none else some none) else some (some k)
  do
    let candidate ← check s.candidate
    let outer ← s.outer.mapM check
    some { s with candidate, outer }

/-- Gives up the candidate of the current level. -/
def dropCandidate (s : Scan) : Option Scan :=
  if s.candidate.any (·.required) then none else some { s with candidate := none }

/-- Makes the next token a candidate if a key may start here. -/
def offer (s : Scan) : Option Scan :=
  if s.keyAllowed then do
    let required := !s.inFlow && s.indent == s.cursor.column
    let s ← s.dropCandidate
    let c := s.cursor
    let k : Candidate := ⟨s.tokens.size, required, c.index, c.line, c.column⟩
    some { s with candidate := some k }
  else some s

/-- Ends the blocks that are indented more than `column`. -/
def unroll (column : Int) (s : Scan) : Scan :=
  if s.inFlow then s
  else
    let rec go (s : Scan) : List Int → Scan
      | [] => s
      | i :: rest =>
        if s.indent > column then go { s.push .blockEnd with indent := i, indents := rest } rest
        else s
    go s s.indents

/-- Begins a block at `column` with the given token before the one at `position`, unless the
current block is indented that far already. -/
def roll (column : Nat) (position : Nat) (t : Token) (s : Scan) : Scan :=
  if s.inFlow || s.indent ≥ column then s
  else { s.insertAt position t with indent := column, indents := s.indent :: s.indents }

/-- Begins a flow collection. -/
def openFlow (t : Token) (s : Scan) : Option Scan := do
  let s ← s.offer
  some { (s.push t).move (·.skip 1) with
    outer := s.candidate :: s.outer, candidate := none, keyAllowed := true }

/-- Ends a flow collection. -/
def closeFlow (t : Token) (s : Scan) : Option Scan := do
  let s ← s.dropCandidate
  let s := (s.push t).move (·.skip 1)
  match s.outer with
  | [] => some { s with keyAllowed := false }
  | k :: outer => some { s with outer, candidate := k, keyAllowed := false }

/-- An indicator that separates two entries. -/
def flowEntry (s : Scan) : Option Scan := do
  let s ← s.dropCandidate
  some { (s.push .flowEntry).move (·.skip 1) with keyAllowed := true }

/-- An indicator that starts an entry of a block sequence. -/
def blockEntry (s : Scan) : Option Scan := do
  if !s.inFlow && !s.keyAllowed then none
  else
    let s := s.roll s.cursor.column s.tokens.size .blockSequenceStart
    let s ← s.dropCandidate
    some { (s.push .blockEntry).move (·.skip 1) with keyAllowed := true }

/-- An indicator that starts a key. -/
def explicitKey (s : Scan) : Option Scan := do
  if !s.inFlow && !s.keyAllowed then none
  else
    let s := s.roll s.cursor.column s.tokens.size .blockMappingStart
    let s ← s.dropCandidate
    some { (s.push .key).move (·.skip 1) with keyAllowed := !s.inFlow }

/-- An indicator that starts a value; it makes the candidate a key. -/
def value (s : Scan) : Option Scan :=
  match s.candidate with
  | some k =>
    let s := (s.insertAt k.position .key).roll k.column k.position .blockMappingStart
    some { (s.push .value).move (·.skip 1) with candidate := none, keyAllowed := false }
  | none =>
    if !s.inFlow && !s.keyAllowed then none
    else
      let s := s.roll s.cursor.column s.tokens.size .blockMappingStart
      some { (s.push .value).move (·.skip 1) with keyAllowed := !s.inFlow }

/-- May the character be part of the name of an anchor or of a tag's handle? -/
def isNameChar (c : Char) : Bool := c.isAlphanum || c == '_' || c == '-'

/-- An anchor or an alias. -/
def name (make : String → Token) (s : Scan) : Option Scan := do
  let s ← s.offer
  let cs := s.cursor.rest.drop 1
  let name := cs.takeWhile isNameChar
  let after := cs.dropWhile isNameChar
  let ends := atWordEnd after ||
    endsOr (fun c => ['?', ':', ',', ']', '\x7d', '%', '@', '`'].contains c) after
  if name.isEmpty || !ends then none
  else some { (s.push (make (String.ofList name))).move (·.skip (name.length + 1)) with
    keyAllowed := false }

/-- May the character be part of a tag? -/
def isTagChar (verbatim : Bool) (c : Char) : Bool :=
  isNameChar c || [';', '/', '?', ':', '@', '&', '=', '+', '$', '.', '!', '~', '*', '\'', '(', ')',
    '%'].contains c || (verbatim && [',', '[', ']'].contains c)

/-- The octets of a tag, one for each character and one for each escape, and what follows the
tag. -/
def tagOctets (verbatim : Bool) : List Char → Option (List (Nat × Bool) × List Char)
  | [] => some ([], [])
  | '%' :: a :: b :: rest => do
    let n ← Word.natural? 16 [a, b]
    let (octets, rest) ← tagOctets verbatim rest
    some ((n, true) :: octets, rest)
  | c :: rest =>
    if c == '%' then none
    else if isTagChar verbatim c then do
      let (octets, rest) ← tagOctets verbatim rest
      some ((c.toNat, false) :: octets, rest)
    else some ([], c :: rest)

/-- How many octets a character takes whose first one is escaped; 0 if none starts so. -/
def octetWidth (n : Nat) : Nat :=
  if n < 0x80 then 1
  else if n / 0x20 = 0x6 then 2
  else if n / 0x10 = 0xE then 3
  else if n / 0x8 = 0x1E then 4
  else 0

/-- The characters of some octets, before which `more` octets of a character are missing that has
the given code so far.  All octets of a character are escaped, or none. -/
def tagChars (more code : Nat) : List (Nat × Bool) → Option (List Char)
  | [] => if more = 0 then some [] else none
  | (n, escaped) :: rest =>
    if more = 0 then
      -- The leading bits of the first octet say how many there are.
      match if escaped then octetWidth n else 1 with
      | 0 => none
      | 1 => (tagChars 0 0 rest).map (Char.ofNat n :: ·)
      | width => tagChars (width - 1) (n % Nat.pow 2 (7 - width)) rest
    else if !escaped || n / 0x40 != 2 then none
    else
      let code := code * 0x40 + n % 0x40
      if more = 1 then (tagChars 0 0 rest).map (Char.ofNat code :: ·)
      else tagChars (more - 1) code rest

/-- Reads a part of a tag. -/
def scanTagPart (verbatim : Bool) (cs : List Char) : Option (List Char × List Char) := do
  let (octets, rest) ← tagOctets verbatim cs
  let chars ← tagChars 0 0 octets
  some (chars, rest)

/-- Reads a tag: its handle, the rest of it, and what follows. -/
def scanTag (cs : List Char) : Option (String × String × List Char) :=
  match cs with
  | '!' :: '<' :: cs => do
    let (suffix, rest) ← scanTagPart true cs
    match suffix, rest with
    | _ :: _, '>' :: rest => some ("", String.ofList suffix, rest)
    | _, _ => none
  | _ =>
    let name := (cs.drop 1).takeWhile isNameChar
    match (cs.drop 1).dropWhile isNameChar with
    | '!' :: cs => do
      let (suffix, rest) ← scanTagPart false cs
      if suffix.isEmpty then none
      else some ("!" ++ String.ofList name ++ "!", String.ofList suffix, rest)
    | cs => do
      let (suffix, rest) ← scanTagPart false cs
      if name.isEmpty && suffix.isEmpty then some ("", "!", rest)
      else some ("!", String.ofList (name ++ suffix), rest)

/-- A tag. -/
def tag (s : Scan) : Option Scan := do
  let s ← s.offer
  let (handle, suffix, rest) ← scanTag s.cursor.rest
  if atWordEnd rest || (s.inFlow && rest.head? = some ',') then
    let length := s.cursor.rest.length - rest.length
    some { (s.push (.tag handle suffix)).move (·.skip length) with keyAllowed := false }
  else none

/-- Reads a number of at most nine digits. -/
def scanVersionPart (cs : List Char) : Option (Nat × List Char) := do
  let digits := cs.takeWhile Char.isDigit
  if 9 < digits.length then none
  else some (← Word.natural? 10 digits, cs.dropWhile Char.isDigit)

/-- Reads the value of a directive of the given name. -/
def scanDirective (name : String) (cs : List Char) : Option (Token × List Char) :=
  let cs := cs.dropWhile isGap
  match name with
  | "YAML" => do
    let (major, cs) ← scanVersionPart cs
    match cs with
    | '.' :: cs => do
      let (minor, rest) ← scanVersionPart cs
      some (.version major minor, rest)
    | _ => none
  | "TAG" =>
    match cs with
    | '!' :: cs => do
      let name := cs.takeWhile isNameChar
      -- A handle ends as it starts; the shortest one is a single mark.
      let (handle, cs) ← match cs.dropWhile isNameChar with
        | '!' :: cs => some ("!" ++ String.ofList name ++ "!", cs)
        | cs => if name.isEmpty then some ("!", cs) else none
      if !cs.head?.any isGap then none
      else
        let (tags, rest) ← scanTagPart true (cs.dropWhile isGap)
        if tags.isEmpty || !atWordEnd rest then none
        else some (.declaration handle (String.ofList tags), rest)
    | _ => none
  | _ => none

/-- A directive. -/
def directive (s : Scan) : Option Scan := do
  let s ← (s.unroll (-1)).dropCandidate
  let cs := s.cursor.rest.drop 1
  let name := cs.takeWhile isNameChar
  let cs := cs.dropWhile isNameChar
  if name.isEmpty || !atWordEnd cs then none
  else
    let (token, rest) ← scanDirective (String.ofList name) cs
    let rest := rest.dropWhile isGap
    if rest.head? = some '#' || atLineEnd rest then
      let line := s.cursor.rest.takeWhile fun c => !isBreak c
      some { (s.push token).move (·.skip line.length) with keyAllowed := false }
    else none

/-- A line that starts or ends a document. -/
def documentMark (t : Token) (s : Scan) : Option Scan := do
  let s ← (s.unroll (-1)).dropCandidate
  some { (s.push t).move (·.skip 3) with keyAllowed := false }

/-- The end of the text. -/
def finish (s : Scan) : Option Scan := do
  let s ← (s.unroll (-1)).dropCandidate
  some { s.push .streamEnd with keyAllowed := false }

/-- A block scalar. -/
def block (folded : Bool) (s : Scan) : Option Scan := do
  let s ← s.dropCandidate
  let (text, c) ← scanBlock folded s.indent (s.cursor.skip 1)
  let form := if folded then .other else .literal
  some { s.push (.scalar (String.ofList text) form) with cursor := c, keyAllowed := true }

/-- A quoted scalar. -/
def quoted (double : Bool) (s : Scan) : Option Scan := do
  let s ← s.offer
  let c := s.cursor.skip 1
  let (text, c) ← scanQuoted double [] c (c.rest.length + 1)
  some { s.push (.scalar (String.ofList text) .other) with cursor := c, keyAllowed := false }

/-- A plain scalar. -/
def plain (s : Scan) : Option Scan := do
  let s ← s.offer
  let margin := (s.indent + 1).toNat
  let (text, c, spans) ←
    scanPlain s.inFlow margin [] {} s.cursor s.cursor (s.cursor.rest.length + 1)
  some { s.push (.scalar (String.ofList text) .plain) with cursor := c, keyAllowed := spans }

/-- May a plain scalar start with `c`, which `cs` follows? -/
def startsPlain (inFlow : Bool) (c : Char) (cs : List Char) : Bool :=
  !(isGap c || isBreak c || ['-', '?', ':', ',', '[', ']', '\x7b', '\x7d', '#', '&', '*', '!', '|',
      '>', '\'', '"', '%', '@', '`'].contains c) ||
    (c == '-' && !endsOr isGap cs) ||
    (!inFlow && (c == '?' || c == ':') && !atWordEnd cs)

/-- Reads the next token, and possibly tokens before it. -/
def next (s : Scan) : Option Scan := do
  let s ← (s.skipGaps (s.cursor.rest.length + 1)).dropStale
  let s := s.unroll s.cursor.column
  match s.cursor.rest with
  | [] => s.finish
  | c :: cs =>
    let ends := atWordEnd cs
    if s.cursor.column == 0 && c == '%' then s.directive
    else if s.cursor.atMark ['-', '-', '-'] then s.documentMark .documentStart
    else if s.cursor.atMark ['.', '.', '.'] then s.documentMark .documentEnd
    else if c == '[' then s.openFlow .flowSequenceStart
    else if c == '\x7b' then s.openFlow .flowMappingStart
    else if c == ']' then s.closeFlow .flowSequenceEnd
    else if c == '\x7d' then s.closeFlow .flowMappingEnd
    else if c == ',' then s.flowEntry
    else if c == '-' && ends then s.blockEntry
    else if c == '?' && (s.inFlow || ends) then s.explicitKey
    else if c == ':' && (s.inFlow || ends) then s.value
    else if c == '*' then s.name .aliasOf
    else if c == '&' then s.name .anchor
    else if c == '!' then s.tag
    else if c == '|' && !s.inFlow then s.block false
    else if c == '>' && !s.inFlow then s.block true
    else if c == '\'' then s.quoted false
    else if c == '"' then s.quoted true
    else if startsPlain s.inFlow c cs then s.plain
    else none

/-- The tokens that no candidate holds back. -/
def delivered (s : Scan) : List Token :=
  let held := (s.candidate :: s.outer).filterMap id |>.map (·.position)
  s.tokens.toList.take (held.foldl min s.tokens.size)

/-- What a failed step leaves behind: gaps are skipped and old candidates given up before it
fails. -/
def stopped (s : Scan) : Scan :=
  let s := s.skipGaps (s.cursor.rest.length + 1)
  match s.dropStale with
  | some s => s.unroll s.cursor.column
  | none => s

/-- Reads all tokens, at most `fuel` times one and those before it. -/
def run (s : Scan) : Nat → List Token
  | 0 => s.delivered
  | fuel + 1 =>
    match s.next with
    | none => s.stopped.delivered
    | some s' => if s'.tokens.back? = some .streamEnd then s'.tokens.toList else run s' fuel

end Scan

/-- May the character stand in a YAML text? -/
def isAllowed (c : Char) : Bool :=
  let n := c.toNat
  n == 9 || n == 10 || n == 13 || (0x20 ≤ n && n ≤ 0x7E) || n == 0x85 ||
    (0xA0 ≤ n && n ≤ 0xFFFD && n != 0xFEFF) || 0x10000 ≤ n

/-- The tokens of a text; the last one is `streamEnd` unless the text goes wrong.  A byte order
mark at the start is not part of the text. -/
def tokens (cs : List Char) : List Token :=
  let cs := match cs with
    | '\ufeff' :: rest => rest
    | _ => cs
  if cs.all isAllowed then ({ cursor := { rest := cs } } : Scan).run (cs.length + 2) else []

end SqlWorkflow.Yaml
