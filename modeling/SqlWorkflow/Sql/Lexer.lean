import SqlWorkflow.Sql.Tree
import SqlWorkflow.Outcome

/-!
# Reading definition files

A definition file is cut into nodes from front to back.  Every scan returns what it found and the
rest of the text; what it found and the rest make up the text it was given (`source_scanFragment`,
`source_scanSection`, `source_scanFile`), so nothing is lost and every scan ends.

A failed scan says what was wrong and returns the text from the place where the culprit starts.
-/

namespace SqlWorkflow.Sql

/-! ## §1 Errors -/

/-- What can be wrong with a definition file. -/
inductive LexFault where
  | unterminatedString
  | unterminatedComment
  | unterminatedCodeBlock
  | unterminatedPlaceholder
  | unterminatedSection (keyword : Keyword)
  | strayBrace
  deriving DecidableEq, Repr, Inhabited

/-- The wording of a fault. -/
def LexFault.message : LexFault → String
  | .unterminatedString => "Unterminated string literal"
  | .unterminatedComment => "Unterminated comment"
  | .unterminatedCodeBlock => "Unterminated code block"
  | .unterminatedPlaceholder => "Unterminated placeholder"
  | .unterminatedSection keyword => "Unterminated " ++ keyword.text ++ " block"
  | .strayBrace => "Unexpected '\x7d'"

/-- A fault, and the text from where its culprit starts. -/
structure Culprit where
  fault : LexFault
  rest : List Char
  deriving DecidableEq, Repr, Inhabited

/-- A fault and where it is; lines and columns count from one. -/
structure LexError where
  fault : LexFault
  line : Nat
  column : Nat
  deriving DecidableEq, Repr, Inhabited

/-- The text of the error. -/
def LexError.message (e : LexError) : String :=
  e.fault.message ++ " at line " ++ toString e.line ++ ", column " ++ toString e.column

/-- The line and the column of the place after the given text. -/
def positionAfter (before : List Char) : Nat × Nat :=
  (before.count '\n' + 1, (before.reverse.takeWhile (· != '\n')).length + 1)

/-- The place of a fault in the whole text. -/
def Culprit.locate (source : List Char) (c : Culprit) : LexError :=
  let (line, column) := positionAfter (source.take (source.length - c.rest.length))
  ⟨c.fault, line, column⟩

/-! ## §2 Where a scan stands -/

/-- The surroundings of a scan of SQL. -/
inductive Place where
  /-- The top of a file of the plain dialect. -/
  | plainFile
  /-- The top of a file of the sectioned dialect. -/
  | sectionedFile
  /-- Inside a section. -/
  | insideSection
  deriving DecidableEq, Repr, Inhabited

/-- Does a line start after the character `prev`? -/
def atLineStart (prev : Option Char) : Bool := prev.all (· == '\n')

/-- The line at the start of a text, without its line break. -/
def lineOf (cs : List Char) : List Char :=
  let line := cs.takeWhile (· != '\n')
  if line.getLast? = some '\r' then line.dropLast else line

/-- Is the line a separator: three dashes between blanks? -/
def isSeparator (line : List Char) : Bool :=
  Text.trimBoth (fun c => c == ' ' || c == '\t') line == ['-', '-', '-']

/-- A separator line and the text after it, if the text starts with one and `prev` is the
character before it. -/
def separator? (prev : Option Char) (cs : List Char) : Option (List Char × List Char) :=
  if atLineStart prev && isSeparator (lineOf cs) then
    some (lineOf cs, cs.drop (lineOf cs).length)
  else none

theorem lineOf_isPrefix (cs : List Char) : lineOf cs <+: cs := by
  have hline : cs.takeWhile (· != '\n') <+: cs := List.takeWhile_prefix _
  simp only [lineOf]
  split
  · exact (List.dropLast_prefix _).trans hline
  · exact hline

theorem source_separator? {prev : Option Char} {cs line rest : List Char}
    (h : separator? prev cs = some (line, rest)) : line ++ rest = cs := by
  unfold separator? at h
  split at h
  · cases h
    exact List.prefix_iff_eq_append.1 (lineOf_isPrefix cs)
  · cases h

theorem separator?_ne_nil {prev : Option Char} {cs line rest : List Char}
    (h : separator? prev cs = some (line, rest)) : line ≠ [] := by
  unfold separator? at h
  split at h
  · next hsep =>
    cases h
    intro hnil
    rw [hnil] at hsep
    simp [isSeparator, Text.trimBoth, Text.trimStart, Text.trimEnd] at hsep
  · cases h

/-- Does the text start with the word that turns a comment into code, and a blank after it? -/
def startsCode (cs : List Char) : Bool :=
  (cs.take 5).map Char.toLower == ['j', 'i', 'n', 'j', 'a'] &&
    (cs.drop 5).head?.any Text.isBlank

/-- May the character be part of a word? -/
def isWordChar (c : Char) : Bool := c.isAlphanum || c == '_'

/-- May the character be part of the name of an input? -/
def isLabelChar (c : Char) : Bool := c.isAlphanum || c == '_' || c == '-' || c == '.'

/-- A quoted name after at least one blank, and the text after it. -/
def label? (cs : List Char) : Option (List Char × List Char) :=
  let blanks := cs.takeWhile Text.isBlank
  match cs.dropWhile Text.isBlank with
  | '"' :: rest =>
    let name := rest.takeWhile isLabelChar
    match rest.dropWhile isLabelChar with
    | '"' :: rest =>
      if blanks.isEmpty || name.isEmpty then none else some (blanks ++ '"' :: name ++ ['"'], rest)
    | _ => none
  | _ => none

/-- What stands between the keyword and its brace, blanks before the brace apart. -/
def labelFor? (keyword : Keyword) (cs : List Char) : Option (List Char × List Char) :=
  if keyword = .sql .input then label? cs else some ([], cs)

/-- What opens the section of a keyword, up to its brace, and the text after it. -/
def opening? (keyword : Keyword) (cs : List Char) : Option (List Char × List Char) := do
  let rest ← Text.dropLead? keyword.text.toList cs
  let (label, rest) ← labelFor? keyword rest
  match rest.dropWhile Text.isBlank with
  | '\x7b' :: after =>
    some (keyword.text.toList ++ label ++ rest.takeWhile Text.isBlank ++ ['\x7b'], after)
  | _ => none

/-- The section that starts here, where `prev` is the character before. -/
def section? (prev : Option Char) (cs : List Char) :
    Option (Keyword × List Char × List Char) :=
  if prev.any isWordChar then none
  else Keyword.all.findSome? fun keyword => (opening? keyword cs).map (keyword, ·)

/-- Does literal text end here? -/
def endsText (place : Place) (prev : Option Char) (cs : List Char) : Bool :=
  (separator? prev cs).isSome ||
    match cs with
    | '\'' :: _ | '"' :: _ | '`' :: _ => true
    | '-' :: '-' :: _ | '/' :: '*' :: _ | '$' :: '\x7b' :: _ => true
    | '\x7d' :: _ => place != .plainFile
    | _ => place == .sectionedFile && (section? prev cs).isSome

/-- The longest literal text, and what follows it. -/
def textRun (place : Place) (prev : Option Char) : List Char → List Char × List Char
  | [] => ([], [])
  | c :: cs =>
    if endsText place prev (c :: cs) then ([], c :: cs)
    else
      let (run, rest) := textRun place (some c) cs
      (c :: run, rest)

/-! ## §3 Code in braces -/

/-- The text up to the end of a quotation that has begun with `q`, its closing quote included. -/
def quotation? (q : Char) : List Char → Option (List Char × List Char)
  | [] => none
  | '\\' :: [] => none
  | '\\' :: c :: cs => (quotation? q cs).map fun (s, rest) => ('\\' :: c :: s, rest)
  | c :: cs =>
    if c = q then some ([c], cs) else (quotation? q cs).map fun (s, rest) => (c :: s, rest)

theorem source_quotation? {q : Char} {cs s rest : List Char}
    (h : quotation? q cs = some (s, rest)) : s ++ rest = cs := by
  fun_induction quotation? q cs generalizing s rest with
  | case1 => simp at h
  | case2 => simp at h
  | case3 c cs ih =>
    obtain ⟨⟨s', rest'⟩, hs, heq⟩ := Option.map_eq_some_iff.1 h
    simp only [Prod.mk.injEq] at heq
    simp [← heq.1, ← heq.2, ih hs]
  | case4 =>
    simp at h
    simp [← h.1, ← h.2]
  | case5 c cs _ _ _ ih =>
    obtain ⟨⟨s', rest'⟩, hs, heq⟩ := Option.map_eq_some_iff.1 h
    simp only [Prod.mk.injEq] at heq
    simp [← heq.1, ← heq.2, ih hs]

/-- The code up to the brace that closes the `depth + 1` open ones, and the text after that
brace.  Braces inside quotations do not count. -/
def balanced? (depth : Nat) : List Char → Option (List Char × List Char)
  | [] => none
  | c :: cs =>
    if c = '\'' ∨ c = '"' then
      match _h : quotation? c cs with
      | none => none
      | some (s, rest) => (balanced? depth rest).map fun (code, rest) => (c :: s ++ code, rest)
    else if c = '\x7d' then
      match depth with
      | 0 => some ([], cs)
      | depth + 1 => (balanced? depth cs).map fun (code, rest) => (c :: code, rest)
    else
      (balanced? (if c = '\x7b' then depth + 1 else depth) cs).map fun (code, rest) =>
        (c :: code, rest)
termination_by cs => cs.length
decreasing_by
  · have := congrArg List.length (source_quotation? _h)
    simp only [List.length_append] at this
    simp only [List.length_cons]
    omega
  · simp
  · simp

theorem source_balanced? {depth : Nat} {cs code rest : List Char}
    (h : balanced? depth cs = some (code, rest)) : code ++ '\x7d' :: rest = cs := by
  fun_induction balanced? depth cs generalizing code rest with
  | case1 => simp at h
  | case2 => simp at h
  | case3 depth c cs _ s rest' hq ih =>
    obtain ⟨⟨code', rest''⟩, hs, heq⟩ := Option.map_eq_some_iff.1 h
    simp only [Prod.mk.injEq] at heq
    simp [← heq.1, ← heq.2, ih hs, source_quotation? hq]
  | case4 =>
    simp at h
    simp [← h.1, ← h.2]
  | case5 cs _ depth ih =>
    obtain ⟨⟨code', rest''⟩, hs, heq⟩ := Option.map_eq_some_iff.1 h
    simp only [Prod.mk.injEq] at heq
    simp [← heq.1, ← heq.2, ih hs]
  | case6 depth c cs _ _ ih =>
    obtain ⟨⟨code', rest''⟩, hs, heq⟩ := Option.map_eq_some_iff.1 h
    simp only [Prod.mk.injEq] at heq
    simp [← heq.1, ← heq.2, ih hs]

/-- The expression of a placeholder whose opening has been read, and the text after it. -/
def scanPlaceholder (start cs : List Char) : Except Culprit (String × List Char) :=
  match balanced? 0 cs with
  | some (expr, rest) => .ok (String.ofList expr, rest)
  | none => .error ⟨.unterminatedPlaceholder, start⟩

theorem source_scanPlaceholder {start cs rest : List Char} {expr : String}
    (h : scanPlaceholder start cs = .ok (expr, rest)) :
    placeholderSource expr ++ rest = '$' :: '\x7b' :: cs := by
  unfold scanPlaceholder at h
  split at h
  · next hb =>
    cases h
    simp [placeholderSource, source_balanced? hb]
  · cases h

/-! ## §4 Quoted text -/

/-- The literal text inside quotes up to a placeholder or through the closing quote. -/
inductive QuotedRun where
  | closed (rest : List Char)
  | placeholder (rest : List Char)
  deriving Repr

/-- The literal text inside quotes, and how it ends; `none` if it does not. -/
def quotedRun? (q : Char) : List Char → Option (List Char × QuotedRun)
  | [] => none
  | '\\' :: [] => none
  | '\\' :: c :: cs => (quotedRun? q cs).map fun (s, stop) => ('\\' :: c :: s, stop)
  | c :: cs =>
    if c = q then some ([c], .closed cs)
    else
      match c, cs with
      | '$', '\x7b' :: rest => some ([], .placeholder rest)
      | _, _ => (quotedRun? q cs).map fun (s, stop) => (c :: s, stop)

/-- The text from where a run of quoted text ends. -/
def QuotedRun.rest : QuotedRun → List Char
  | .closed rest => rest
  | .placeholder rest => '$' :: '\x7b' :: rest

theorem source_quotedRun? {q : Char} {cs s : List Char} {stop : QuotedRun}
    (h : quotedRun? q cs = some (s, stop)) : s ++ stop.rest = cs := by
  fun_induction quotedRun? q cs generalizing s stop with
  | case1 => simp at h
  | case2 => simp at h
  | case3 c cs ih =>
    obtain ⟨⟨s', stop'⟩, hs, heq⟩ := Option.map_eq_some_iff.1 h
    simp only [Prod.mk.injEq] at heq
    simp [← heq.1, ← heq.2, ih hs]
  | case4 =>
    simp at h
    simp [← h.1, ← h.2, QuotedRun.rest]
  | case5 =>
    simp at h
    simp [← h.1, ← h.2, QuotedRun.rest]
  | case6 c cs _ _ _ _ ih =>
    obtain ⟨⟨s', stop'⟩, hs, heq⟩ := Option.map_eq_some_iff.1 h
    simp only [Prod.mk.injEq] at heq
    simp [← heq.1, ← heq.2, ih hs]

/-- A text as a part of quoted text, unless it is empty. -/
def textPart (s : List Char) : List QuotedPart :=
  if s.isEmpty then [] else [.text (String.ofList s)]

theorem source_textPart (s : List Char) : (textPart s).flatMap QuotedPart.source = s := by
  unfold textPart
  split
  · next h => simp [List.isEmpty_iff.1 h]
  · simp [QuotedPart.source]

/-- The parts of a quoted text of which `lead` has been read already; `start` is the text from its
opening quote. -/
def scanQuoted (q : Char) (start lead cs : List Char) :
    Except Culprit (List QuotedPart × List Char) :=
  match _h : quotedRun? q cs with
  | none => .error ⟨.unterminatedString, start⟩
  | some (s, .closed rest) => .ok (textPart (lead ++ s), rest)
  | some (s, .placeholder rest) =>
    match _h' : scanPlaceholder ('$' :: '\x7b' :: rest) rest with
    | .error e => .error e
    | .ok (expr, rest') =>
      (scanQuoted q start [] rest').map fun (parts, rest) =>
        (textPart (lead ++ s) ++ .placeholder expr :: parts, rest)
termination_by cs.length
decreasing_by
  have h₁ := congrArg List.length (source_quotedRun? _h)
  have h₂ := congrArg List.length (source_scanPlaceholder _h')
  simp only [List.length_append, QuotedRun.rest, placeholderSource, List.length_cons] at h₁ h₂
  omega

theorem source_scanQuoted {q : Char} {start lead cs rest : List Char} {parts : List QuotedPart}
    (h : scanQuoted q start lead cs = .ok (parts, rest)) :
    parts.flatMap QuotedPart.source ++ rest = lead ++ cs := by
  fun_induction scanQuoted q start lead cs generalizing parts rest with
  | case1 => cases h
  | case2 lead cs s rest' hq =>
    cases h
    rw [source_textPart, ← source_quotedRun? hq, List.append_assoc]
    rfl
  | case3 => cases h
  | case4 lead cs s rest' hq expr rest'' hp ih =>
    obtain ⟨_, hs, heq⟩ := exists_of_map_eq_ok h
    cases heq
    have h₁ := ih hs
    have h₂ := source_quotedRun? hq
    have h₃ := source_scanPlaceholder hp
    simp only [List.nil_append] at h₁
    simp only [QuotedRun.rest] at h₂
    rw [List.flatMap_append, source_textPart, List.flatMap_cons, QuotedPart.source, ← h₂, ← h₃,
      ← h₁]
    simp

theorem length_scanPlaceholder {start cs rest : List Char} {expr : String}
    (h : scanPlaceholder start cs = .ok (expr, rest)) : rest.length ≤ cs.length := by
  have := congrArg List.length (source_scanPlaceholder h)
  simp only [placeholderSource, List.length_append, List.length_cons] at this
  omega

theorem length_scanQuoted {q : Char} {start lead cs rest : List Char} {parts : List QuotedPart}
    (h : scanQuoted q start lead cs = .ok (parts, rest)) : rest.length ≤ cs.length := by
  fun_induction scanQuoted q start lead cs generalizing parts rest with
  | case1 => cases h
  | case2 lead cs s rest' hq =>
    cases h
    have := congrArg List.length (source_quotedRun? hq)
    simp only [List.length_append, QuotedRun.rest] at this
    omega
  | case3 => cases h
  | case4 lead cs s rest' hq expr rest'' hp ih =>
    obtain ⟨_, hs, heq⟩ := exists_of_map_eq_ok h
    cases heq
    have h₁ := ih hs
    have h₂ := congrArg List.length (source_quotedRun? hq)
    have h₃ := length_scanPlaceholder hp
    simp only [List.length_append, QuotedRun.rest, List.length_cons] at h₂
    omega

/-! ## §5 Fragments -/

/-- The text before `*/` and the text after it. -/
def commentEnd? : List Char → Option (List Char × List Char) := Text.cutAt? ['*', '/']

/-- The fragment at the start of a text that is not empty, where `prev` is the character before
it.  A character that starts nothing else starts literal text. -/
def scanFragment (place : Place) (prev : Option Char) (c : Char) (cs : List Char) :
    Except Culprit (Fragment × List Char) :=
  match separator? prev (c :: cs) with
  | some (line, rest) => .ok (.separator (String.ofList line), rest)
  | none =>
    if c = '\'' ∨ c = '"' ∨ c = '`' then
      (scanQuoted c (c :: cs) [c] cs).map fun (parts, rest) => (.quoted parts, rest)
    else
      match c, cs with
      | '-', '-' :: _ =>
        .ok (.comment (String.ofList ((c :: cs).takeWhile (· != '\n'))),
          (c :: cs).dropWhile (· != '\n'))
      | '/', '*' :: body =>
        match commentEnd? body with
        | some (inner, rest) =>
          .ok (.comment (String.ofList ('/' :: '*' :: inner ++ ['*', '/'])), rest)
        | none => .error ⟨.unterminatedComment, c :: cs⟩
      | '$', '\x7b' :: body =>
        (scanPlaceholder (c :: cs) body).map fun (expr, rest) => (.placeholder expr, rest)
      | _, _ =>
        let (run, rest) := textRun place (some c) cs
        .ok (.text (String.ofList (c :: run)), rest)

theorem source_textRun (place : Place) (prev : Option Char) (cs : List Char) :
    (textRun place prev cs).1 ++ (textRun place prev cs).2 = cs := by
  fun_induction textRun place prev cs with
  | case1 => rfl
  | case2 => rfl
  | case3 prev c cs _ run rest heq ih => simpa [heq] using ih

theorem source_commentEnd? {cs inner rest : List Char}
    (h : commentEnd? cs = some (inner, rest)) : inner ++ '*' :: '/' :: rest = cs :=
  (Text.eq_append_of_cutAt? h).symm

theorem source_scanFragment {place : Place} {prev : Option Char} {c : Char} {cs rest : List Char}
    {f : Fragment} (h : scanFragment place prev c cs = .ok (f, rest)) :
    f.source ++ rest = c :: cs := by
  unfold scanFragment at h
  split at h
  · next hs =>
    cases h
    simp [Fragment.source, source_separator? hs]
  · split at h
    · obtain ⟨_, hq, heq⟩ := exists_of_map_eq_ok h
      cases heq
      simpa [Fragment.source] using source_scanQuoted hq
    · split at h
      · cases h
        simp [Fragment.source, List.takeWhile_append_dropWhile]
      · split at h
        · next hc =>
          cases h
          simp [Fragment.source, ← source_commentEnd? hc]
        · cases h
      · obtain ⟨_, hp, heq⟩ := exists_of_map_eq_ok h
        cases heq
        simpa [Fragment.source] using source_scanPlaceholder hp
      · cases h
        simp [Fragment.source, source_textRun]

/-- A fragment holds at least one character. -/
theorem length_scanFragment {place : Place} {prev : Option Char} {c : Char} {cs rest : List Char}
    {f : Fragment} (h : scanFragment place prev c cs = .ok (f, rest)) :
    rest.length ≤ cs.length := by
  unfold scanFragment at h
  split at h
  · next line rest' hs =>
    cases h
    have h₁ := congrArg List.length (source_separator? hs)
    have h₂ := List.length_pos_iff.2 (separator?_ne_nil hs)
    simp only [List.length_append, List.length_cons] at h₁
    omega
  · split at h
    · obtain ⟨_, hq, heq⟩ := exists_of_map_eq_ok h
      cases heq
      exact length_scanQuoted hq
    · split at h
      · cases h
        next rest _ _ =>
          have := (List.dropWhile_sublist (· != '\n') (l := rest)).length_le
          simp
          omega
      · split at h
        · next hc =>
          cases h
          simp [← source_commentEnd? hc]
          omega
        · cases h
      · obtain ⟨_, hp, heq⟩ := exists_of_map_eq_ok h
        cases heq
        exact Nat.le_succ_of_le (length_scanPlaceholder hp)
      · cases h
        have := congrArg List.length (source_textRun place (some c) cs)
        simp only [List.length_append] at this
        omega

/-! ## §6 Sections and files -/

/-- The last character of a text that stands after `prev`. -/
def lastChar (prev : Option Char) (cs : List Char) : Option Char := cs.getLast?.or prev

/-- The fragments of a section up to its closing brace, and the text after that brace; `none` if
there is no such brace. -/
def scanSection (prev : Option Char) (cs : List Char) :
    Except Culprit (Option (List Fragment × List Char)) :=
  match cs with
  | [] => .ok none
  | c :: cs =>
    if c = '\x7d' then .ok (some ([], cs))
    else
      match _h : scanFragment .insideSection prev c cs with
      | .error e => .error e
      | .ok (f, rest) =>
        (scanSection (lastChar prev f.source) rest).map fun found =>
          found.map fun (fragments, rest) => (f :: fragments, rest)
termination_by cs.length
decreasing_by exact Nat.lt_succ_of_le (length_scanFragment _h)

theorem source_scanSection {prev : Option Char} {cs rest : List Char} {fragments : List Fragment}
    (h : scanSection prev cs = .ok (some (fragments, rest))) :
    sourceOf fragments ++ '\x7d' :: rest = cs := by
  fun_induction scanSection prev cs generalizing fragments rest with
  | case1 => cases h
  | case2 =>
    cases h
    rfl
  | case3 => cases h
  | case4 prev c cs _ f rest' hf ih =>
    obtain ⟨found, hs, heq⟩ := exists_of_map_eq_ok h
    cases found with
    | none => cases heq
    | some found =>
      cases heq
      have := ih hs
      rw [sourceOf, List.flatMap_cons, ← source_scanFragment hf, ← this, List.append_assoc]
      rfl

/-- The section of a keyword whose opening has been read; `start` is the text from its
opening. -/
def scanSectionOf (keyword : Keyword) (start opening cs : List Char) :
    Except Culprit (Node × List Char) :=
  let unterminated : Culprit := ⟨.unterminatedSection keyword, start⟩
  match keyword with
  | .code _ =>
    match balanced? 0 cs with
    | some (code, rest) =>
      .ok (.braced keyword (String.ofList opening) (.code (String.ofList code)), rest)
    | none => .error unterminated
  | .sql _ =>
    match scanSection (some '\x7b') cs with
    | .error e => .error e
    | .ok none => .error unterminated
    | .ok (some (body, rest)) => .ok (.braced keyword (String.ofList opening) (.sql body), rest)

/-- The code block that holds the rest of a line after its two dashes. -/
def codeLine (line : List Char) : Node :=
  .codeBlock (String.ofList ('-' :: '-' :: line.take 5)) (String.ofList (line.drop 5)) ""

/-- The code block at the start of a text that starts with a comment, if it is one. -/
def codeBlock? (cs : List Char) : Option (Except Culprit (Node × List Char)) :=
  match cs with
  | '-' :: '-' :: body =>
    if startsCode (body.takeWhile (· != '\n')) then
      some (.ok (codeLine (body.takeWhile (· != '\n')), body.dropWhile (· != '\n')))
    else none
  | '/' :: '*' :: body =>
    if startsCode body then
      match commentEnd? body with
      | some (inner, rest) =>
        some (.ok (.codeBlock (String.ofList ('/' :: '*' :: inner.take 5))
          (String.ofList (inner.drop 5)) "*/", rest))
      | none => some (.error ⟨.unterminatedCodeBlock, cs⟩)
    else none
  | _ => none

/-- The node at the start of a file or of what is left of it. -/
def scanNode (dialect : Dialect) (prev : Option Char) (c : Char) (cs : List Char) :
    Except Culprit (Node × List Char) :=
  let fragment (place : Place) : Except Culprit (Node × List Char) :=
    (scanFragment place prev c cs).map fun (f, rest) => (.fragment f, rest)
  match dialect with
  | .plain =>
    match codeBlock? (c :: cs) with
    | some found => found
    | none => fragment .plainFile
  | .sectioned =>
    if c = '\x7d' then .error ⟨.strayBrace, c :: cs⟩
    else
      match section? prev (c :: cs) with
      | some (keyword, opening, rest) => scanSectionOf keyword (c :: cs) opening rest
      | none => fragment .sectionedFile

theorem source_codeBlock? {cs rest : List Char} {node : Node}
    (h : codeBlock? cs = some (.ok (node, rest))) : node.source ++ rest = cs := by
  unfold codeBlock? at h
  split at h
  · next body =>
    split at h
    · cases h
      have := List.takeWhile_append_dropWhile (p := (· != '\n')) (l := body)
      simp only [codeLine, Node.source, String.toList_ofList, List.cons_append,
        List.take_append_drop]
      simp [this]
    · cases h
  · split at h
    · split at h
      · next hc =>
        cases h
        simp only [Node.source, String.toList_ofList, List.cons_append, List.take_append_drop,
          ← source_commentEnd? hc]
        simp
      · cases h
    · cases h
  · cases h

theorem source_codeBlock?_ne_nil {cs rest : List Char} {node : Node}
    (h : codeBlock? cs = some (.ok (node, rest))) : node.source ≠ [] := by
  unfold codeBlock? at h
  split at h
  · split at h
    · cases h
      simp [codeLine, Node.source]
    · cases h
  · split at h
    · split at h
      · cases h
        simp [Node.source]
      · cases h
    · cases h
  · cases h

theorem source_label? {cs label rest : List Char} (h : label? cs = some (label, rest)) :
    label ++ rest = cs := by
  simp only [label?] at h
  split at h
  · next rest' hb =>
    split at h
    · next rest'' hl =>
      split at h
      · cases h
      · cases h
        have h₁ := List.takeWhile_append_dropWhile (p := Text.isBlank) (l := cs)
        have h₂ := List.takeWhile_append_dropWhile (p := isLabelChar) (l := rest')
        rw [hb, ← h₂, hl] at h₁
        simpa using h₁
    · cases h
  · cases h

theorem source_opening? {keyword : Keyword} {cs opening rest : List Char}
    (h : opening? keyword cs = some (opening, rest)) : opening ++ rest = cs := by
  simp only [opening?, Option.bind_eq_bind, Option.bind_eq_some_iff] at h
  obtain ⟨afterWord, hw, ⟨label, afterLabel⟩, hl, h⟩ := h
  split at h
  · next after hb =>
    cases h
    have h₁ := List.takeWhile_append_dropWhile (p := Text.isBlank) (l := afterLabel)
    have h₂ : label ++ afterLabel = afterWord := by
      unfold labelFor? at hl
      split at hl
      · exact source_label? hl
      · cases hl
        rfl
    rw [hb] at h₁
    rw [Text.eq_append_of_dropLead? hw, ← h₂]
    simp [h₁]
  · cases h

theorem opening?_ne_nil {keyword : Keyword} {cs opening rest : List Char}
    (h : opening? keyword cs = some (opening, rest)) : opening ≠ [] := by
  simp only [opening?, Option.bind_eq_bind, Option.bind_eq_some_iff] at h
  obtain ⟨_, -, _, -, h⟩ := h
  split at h
  · cases h
    simp
  · cases h

theorem source_section? {prev : Option Char} {keyword : Keyword} {cs opening rest : List Char}
    (h : section? prev cs = some (keyword, opening, rest)) :
    opening ++ rest = cs ∧ opening ≠ [] := by
  unfold section? at h
  split at h
  · cases h
  · obtain ⟨keyword', -, hk⟩ := List.exists_of_findSome?_eq_some h
    obtain ⟨⟨opening', rest'⟩, ho, heq⟩ := Option.map_eq_some_iff.1 hk
    cases heq
    exact ⟨source_opening? ho, opening?_ne_nil ho⟩

theorem source_scanSectionOf {keyword : Keyword} {start opening cs rest : List Char} {node : Node}
    (h : scanSectionOf keyword start opening cs = .ok (node, rest)) :
    node.source ++ rest = opening ++ cs := by
  cases keyword with
  | code kind =>
    simp only [scanSectionOf] at h
    split at h
    · next hb =>
      cases h
      simp [Node.source, SectionBody.source, source_balanced? hb]
    · cases h
  | sql kind =>
    simp only [scanSectionOf] at h
    split at h
    · cases h
    · cases h
    · next hs =>
      cases h
      have := source_scanSection hs
      rw [sourceOf] at this
      simp [Node.source, SectionBody.source, this]

theorem scanSectionOf_ne_nil {keyword : Keyword} {start opening cs rest : List Char} {node : Node}
    (h : scanSectionOf keyword start opening cs = .ok (node, rest)) : node.source ≠ [] := by
  cases keyword with
  | code kind =>
    simp only [scanSectionOf] at h
    split at h
    · cases h
      simp [Node.source]
    · cases h
  | sql kind =>
    simp only [scanSectionOf] at h
    split at h
    · cases h
    · cases h
    · cases h
      simp [Node.source]

/-- A node and what follows it are the text. -/
theorem source_scanNode {dialect : Dialect} {prev : Option Char} {c : Char} {cs rest : List Char}
    {node : Node} (h : scanNode dialect prev c cs = .ok (node, rest)) :
    node.source ++ rest = c :: cs := by
  cases dialect with
  | plain =>
    simp only [scanNode] at h
    split at h
    · next hc =>
      rw [h] at hc
      exact source_codeBlock? hc
    · obtain ⟨_, hf, heq⟩ := exists_of_map_eq_ok h
      cases heq
      exact source_scanFragment hf
  | sectioned =>
    simp only [scanNode] at h
    split at h
    · cases h
    · split at h
      · next hs => rw [source_scanSectionOf h, (source_section? hs).1]
      · obtain ⟨_, hf, heq⟩ := exists_of_map_eq_ok h
        cases heq
        exact source_scanFragment hf

/-- A node holds at least one character. -/
theorem length_scanNode {dialect : Dialect} {prev : Option Char} {c : Char} {cs rest : List Char}
    {node : Node} (h : scanNode dialect prev c cs = .ok (node, rest)) :
    rest.length ≤ cs.length := by
  have hsource : node.source ++ rest = c :: cs := source_scanNode h
  have ofNonempty : node.source ≠ [] → rest.length ≤ cs.length := by
    intro hne
    have h₁ := congrArg List.length hsource
    have h₂ := List.length_pos_iff.2 hne
    simp only [List.length_append, List.length_cons] at h₁
    omega
  cases dialect with
  | plain =>
    simp only [scanNode] at h
    split at h
    · next hc =>
      rw [h] at hc
      exact ofNonempty (source_codeBlock?_ne_nil hc)
    · obtain ⟨_, hf, heq⟩ := exists_of_map_eq_ok h
      cases heq
      exact length_scanFragment hf
  | sectioned =>
    simp only [scanNode] at h
    split at h
    · cases h
    · split at h
      · exact ofNonempty (scanSectionOf_ne_nil h)
      · obtain ⟨_, hf, heq⟩ := exists_of_map_eq_ok h
        cases heq
        exact length_scanFragment hf

/-- The nodes of a file, where `prev` is the character before what is left of it. -/
def scanFile (dialect : Dialect) (prev : Option Char) (cs : List Char) :
    Except Culprit (List Node) :=
  match cs with
  | [] => .ok []
  | c :: cs =>
    match _h : scanNode dialect prev c cs with
    | .error e => .error e
    | .ok (node, rest) => (scanFile dialect (lastChar prev node.source) rest).map (node :: ·)
termination_by cs.length
decreasing_by exact Nat.lt_succ_of_le (length_scanNode _h)

theorem source_scanFile {dialect : Dialect} {prev : Option Char} {cs : List Char}
    {nodes : List Node} (h : scanFile dialect prev cs = .ok nodes) :
    nodes.flatMap Node.source = cs := by
  fun_induction scanFile dialect prev cs generalizing nodes with
  | case1 =>
    cases h
    rfl
  | case2 => cases h
  | case3 prev c cs node rest hn ih =>
    obtain ⟨_, hs, heq⟩ := exists_of_map_eq_ok h
    cases heq
    rw [List.flatMap_cons, ih hs]
    exact source_scanNode hn

/-- The tree of a definition file. -/
def lex (dialect : Dialect) (source : String) : Except LexError Tree :=
  match scanFile dialect none source.toList with
  | .ok nodes => .ok ⟨dialect, nodes⟩
  | .error culprit => .error (culprit.locate source.toList)

end SqlWorkflow.Sql
