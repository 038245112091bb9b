import SqlWorkflow.Proofs.Sql.Plain
import SqlWorkflow.Proofs.Template.Reading
import SqlWorkflow.Proofs.Template.Tokens

/-!
# The template of an action without code

The template of an action holds nothing of its literal SQL, only look-ups in the table of literals.
So without code its statements depend on the number of literals in each part alone, whatever
characters the SQL is made of.

- **§1** The tokens and the statements of such a template.
- **§2** Its text has these tokens (`ofTemplate_templateAll`).
- **§3** The tokens are read as these statements.
- **§4** None of them is a block, so that the template is sound as a whole (`read_templateAll`).
-/

namespace SqlWorkflow.Template

open Sql

/-! ## §1 Tokens and statements -/

/-- The tokens that write literals, the first of which is number `start`. -/
def literalTokens (line start : Nat) : Nat → List Token
  | 0 => []
  | count + 1 =>
    ⟨.openEmit, line⟩ :: ⟨.word Piece.literalsName, line⟩ :: ⟨.sign .openBracket, line⟩ ::
      ⟨.int start, line⟩ :: ⟨.sign .closeBracket, line⟩ :: ⟨.closeEmit, line⟩ ::
      literalTokens line (start + 1) count

/-- The statements that write literals, the first of which is number `start`. -/
def literalStmts (line start : Nat) : Nat → List Stmt
  | 0 => []
  | count + 1 =>
    .emit (.item line (.name Piece.literalsName) (.literal (.int start))) ::
      literalStmts line (start + 1) count

/-- The tokens of a part between its opening word and the end of the tag that closes it. -/
def sectionTokens (line start : Nat) (part : PartBody) (rest : List Token) : List Token :=
  ⟨.word PartBody.filterName, line⟩ :: ⟨.sign .openParen, line⟩ ::
    ⟨.text part.part.name, line⟩ :: ⟨.sign .closeParen, line⟩ :: ⟨.closeTag, line⟩ ::
    (literalTokens line start (Piece.literals part.pieces).length ++
      ⟨.openTag, line⟩ :: ⟨.word "endfilter", line⟩ :: ⟨.closeTag, line⟩ :: rest)

/-- The statement of a part that holds literals only. -/
def sectionStmt (line start : Nat) (part : PartBody) : Stmt :=
  .filtered [⟨line, PartBody.filterName, [(.plain, .literal (.text part.part.name))]⟩]
    (literalStmts line start (Piece.literals part.pieces).length)

/-- The tokens of parts, each on a line of its own. -/
def sectionsTokens (line start : Nat) : List PartBody → List Token
  | [] => []
  | [part] => ⟨.openTag, line⟩ :: ⟨.word "filter", line⟩ :: sectionTokens line start part []
  | part :: rest =>
    ⟨.openTag, line⟩ :: ⟨.word "filter", line⟩ ::
      sectionTokens line start part (⟨.raw "\n", line⟩ ::
        sectionsTokens (line + 1) (start + (Piece.literals part.pieces).length) rest)

/-- The statements of parts that hold literals only. -/
def sectionsStmts (line start : Nat) : List PartBody → List Stmt
  | [] => []
  | [part] => [sectionStmt line start part]
  | part :: rest =>
    sectionStmt line start part :: .raw "\n" ::
      sectionsStmts (line + 1) (start + (Piece.literals part.pieces).length) rest

/-- Are all pieces of the parts literal SQL? -/
def HoldsLiterals (parts : List PartBody) : Prop :=
  ∀ part ∈ parts, ∀ piece ∈ part.pieces, piece.isLiteral = true

/-! ## §2 The text of the template -/

/-- The text of a part without the line end after it. -/
def lineOfPart (start : Nat) (part : PartBody) : String :=
  "\x7b% filter " ++ PartBody.filterName ++ "(\"" ++ part.part.name ++ "\") %\x7d" ++
    Piece.template start part.pieces ++ "\x7b% endfilter %\x7d"

/-- The text of several parts without the last line end. -/
def linesOfParts (start : Nat) : List PartBody → String
  | [] => ""
  | [part] => lineOfPart start part
  | part :: rest =>
    lineOfPart start part ++ "\n" ++
      linesOfParts (start + (Piece.literals part.pieces).length) rest

theorem toList_lineOfPart (start : Nat) (part : PartBody) :
    (lineOfPart start part).toList =
      ("\x7b% filter " ++ PartBody.filterName ++ "(\"" ++ part.part.name ++ "\") %\x7d").toList ++
        ((Piece.template start part.pieces).toList ++ "\x7b% endfilter %\x7d".toList) := by
  change (_ ++ Piece.template start part.pieces ++ "\x7b% endfilter %\x7d").toList = _
  rw [String.toList_append, String.toList_append, List.append_assoc]

theorem template_eq_line (start : Nat) (part : PartBody) :
    part.template start = lineOfPart start part ++ "\n" := by
  have hend : "\x7b% endfilter %\x7d\n" = "\x7b% endfilter %\x7d" ++ "\n" := by decide
  change _ ++ "\x7b% endfilter %\x7d\n" = lineOfPart start part ++ "\n"
  rw [hend, ← String.append_assoc]
  rfl

theorem linesOfParts_cons (start : Nat) (part next : PartBody) (rest : List PartBody) :
    linesOfParts start (part :: next :: rest) = lineOfPart start part ++ "\n" ++
      linesOfParts (start + (Piece.literals part.pieces).length) (next :: rest) := rfl

theorem templateAll_eq_lines {parts : List PartBody} (h : parts ≠ []) :
    ∀ start, PartBody.templateAll start parts = linesOfParts start parts ++ "\n" := by
  induction parts with
  | nil => exact absurd rfl h
  | cons part rest ih =>
    intro start
    cases rest with
    | nil => simp [PartBody.templateAll, linesOfParts, template_eq_line]
    | cons next rest =>
      rw [PartBody.templateAll, ih (List.cons_ne_nil _ _), template_eq_line, linesOfParts_cons,
        String.append_assoc, String.append_assoc, String.append_assoc]

theorem getLast?_linesOfParts {parts : List PartBody} (h : parts ≠ []) :
    ∀ start, (linesOfParts start parts).toList.getLast? = some '\x7d' := by
  induction parts with
  | nil => exact absurd rfl h
  | cons part rest ih =>
    intro start
    cases rest with
    | nil =>
      rw [linesOfParts, toList_lineOfPart, List.getLast?_append, List.getLast?_append]
      rfl
    | cons next rest =>
      rw [linesOfParts_cons, String.toList_append, List.getLast?_append, ih (List.cons_ne_nil _ _)]
      rfl

theorem withoutLastBreak_templateAll (parts : List PartBody) :
    Token.withoutLastBreak (PartBody.templateAll 0 parts).toList =
      (linesOfParts 0 parts).toList := by
  by_cases h : parts = []
  · subst h
    rfl
  · have hlast := getLast?_linesOfParts h 0
    have hchars : (PartBody.templateAll 0 parts).toList =
        (linesOfParts 0 parts).toList ++ ['\n'] := by
      rw [templateAll_eq_lines h, String.toList_append]
      rfl
    rw [hchars, Token.withoutLastBreak]
    simp [hlast]

open Token Cursor

/-- The tag that starts a part. -/
theorem reads_filterTag (part : Part) (L L' : Nat) (rest : List Char) :
    Reads ⟨.outside false, L, L', ("\x7b% filter " ++ PartBody.filterName ++ "(\"" ++ part.name ++
        "\") %\x7d").toList ++ rest⟩
      [⟨.openTag, L⟩, ⟨.word "filter", L⟩, ⟨.word PartBody.filterName, L⟩, ⟨.sign .openParen, L⟩,
        ⟨.text part.name, L⟩, ⟨.sign .closeParen, L⟩, ⟨.closeTag, L⟩]
      ⟨.outside false, L, L, rest⟩ := by
  simp only [String.toList_append]
  cases part
  all_goals exact ⟨10, by simp [PartBody.filterName, Part.name]; omega, fun _ => rfl⟩

/-- The tag that ends a part. -/
theorem reads_endTag (L L' : Nat) (rest : List Char) :
    Reads ⟨.outside false, L, L', "\x7b% endfilter %\x7d".toList ++ rest⟩
      [⟨.openTag, L⟩, ⟨.word "endfilter", L⟩, ⟨.closeTag, L⟩] ⟨.outside false, L, L, rest⟩ :=
  ⟨5, by simp; omega, fun _ => rfl⟩

/-- The line end between two parts. -/
theorem reads_lineEnd (L L' : Nat) (rest : List Char) :
    Reads ⟨.outside false, L, L', '\n' :: ("\x7b% filter ".toList ++ rest)⟩ [⟨.raw "\n", L⟩]
      ⟨.outside false, L + 1, L, "\x7b% filter ".toList ++ rest⟩ :=
  ⟨1, by simp; omega, fun _ => rfl⟩

/-- The look-up of a literal. -/
theorem reads_literal {n : Nat} (hn : n < wholeLimit) (L L' : Nat) (rest : List Char) :
    Reads ⟨.outside false, L, L', ("\x7b\x7b " ++ Piece.literalsName ++ "[" ++ toString n ++
        "] \x7d\x7d").toList ++ rest⟩
      (literalTokens L n 1) ⟨.outside false, L, L, rest⟩ := by
  have hopen (rest : List Char) : Reads
      ⟨.outside false, L, L', "\x7b\x7b __lit[".toList ++ rest⟩
      [⟨.openEmit, L⟩, ⟨.word Piece.literalsName, L⟩, ⟨.sign .openBracket, L⟩]
      ⟨.inside .emit 1, L, L, rest⟩ := ⟨4, by simp; omega, fun _ => rfl⟩
  have hclose : Reads ⟨.inside .emit 1, L, L, ']' :: (" \x7d\x7d".toList ++ rest)⟩
      [⟨.sign .closeBracket, L⟩, ⟨.closeEmit, L⟩] ⟨.outside false, L, L, rest⟩ :=
    ⟨3, by simp; omega, fun _ => rfl⟩
  have hchars : ("\x7b\x7b " ++ Piece.literalsName ++ "[" ++ toString n ++
      "] \x7d\x7d").toList ++ rest =
      "\x7b\x7b __lit[".toList ++ ((toString n).toList ++ ']' :: (" \x7d\x7d".toList ++ rest)) := by
    simp [Piece.literalsName]
  rw [hchars]
  exact (hopen _).trans ((reads_number hn .emit 1 L L rfl _).trans hclose)

theorem literalTokens_succ (line start count : Nat) :
    literalTokens line start (count + 1) =
      literalTokens line start 1 ++ literalTokens line (start + 1) count := rfl

/-- The look-ups of the literals of a part. -/
theorem reads_pieces {pieces : List Piece} (h : ∀ piece ∈ pieces, piece.isLiteral = true) (L : Nat)
    (rest : List Char) :
    ∀ start, start + (Piece.literals pieces).length ≤ wholeLimit →
      Reads ⟨.outside false, L, L, (Piece.template start pieces).toList ++ rest⟩
        (literalTokens L start (Piece.literals pieces).length) ⟨.outside false, L, L, rest⟩ := by
  induction pieces with
  | nil => exact fun _ _ => Reads.refl _
  | cons piece pieces ih =>
    intro start hstart
    cases piece with
    | code => exact absurd (h _ List.mem_cons_self) Bool.false_ne_true
    | literal sql =>
      have hcount : (Piece.literals (.literal sql :: pieces)).length =
          (Piece.literals pieces).length + 1 := rfl
      rw [hcount] at hstart ⊢
      rw [Piece.template, String.toList_append, List.append_assoc, literalTokens_succ]
      exact (reads_literal (by omega) L L _).trans
        (ih (fun piece hp => h piece (List.mem_cons_of_mem _ hp)) _ (by omega))

theorem sectionsTokens_cons (line start : Nat) (part next : PartBody) (rest : List PartBody) :
    sectionsTokens line start (part :: next :: rest) =
      (⟨.openTag, line⟩ :: ⟨.word "filter", line⟩ :: sectionTokens line start part []) ++
        ([⟨.raw "\n", line⟩] ++
          sectionsTokens (line + 1) (start + (Piece.literals part.pieces).length)
            (next :: rest)) := by
  simp [sectionsTokens, sectionTokens]

/-- One part. -/
theorem reads_part {part : PartBody} (h : ∀ piece ∈ part.pieces, piece.isLiteral = true)
    (start : Nat) (hstart : start + (Piece.literals part.pieces).length ≤ wholeLimit)
    (L L' : Nat) (rest : List Char) :
    Reads ⟨.outside false, L, L', (lineOfPart start part).toList ++ rest⟩
      (⟨.openTag, L⟩ :: ⟨.word "filter", L⟩ :: sectionTokens L start part [])
      ⟨.outside false, L, L, rest⟩ := by
  rw [toList_lineOfPart, List.append_assoc, List.append_assoc]
  exact (reads_filterTag part.part L L' _).trans
    ((reads_pieces h L _ start hstart).trans (reads_endTag L L rest))

/-- The parts start with a tag. -/
theorem linesOfParts_eq_append (start : Nat) (part : PartBody) (rest : List PartBody) :
    ∃ chars, (linesOfParts start (part :: rest)).toList = "\x7b% filter ".toList ++ chars := by
  have hline : ∃ chars, (lineOfPart start part).toList = "\x7b% filter ".toList ++ chars := by
    simp only [toList_lineOfPart, String.toList_append, List.append_assoc]
    exact ⟨_, rfl⟩
  obtain ⟨chars, hchars⟩ := hline
  cases rest with
  | nil => exact ⟨chars, hchars⟩
  | cons next rest =>
    rw [linesOfParts_cons, String.toList_append, String.toList_append, hchars, List.append_assoc,
      List.append_assoc]
    exact ⟨_, rfl⟩

/-- All parts, up to the end of the text. -/
theorem reads_parts {parts : List PartBody} (h : HoldsLiterals parts) :
    ∀ start L L',
      start + (parts.flatMap fun part => Piece.literals part.pieces).length ≤ wholeLimit →
      ∃ c, c.ahead = [] ∧
        Reads ⟨.outside false, L, L', (linesOfParts start parts).toList⟩
          (sectionsTokens L start parts) c := by
  induction parts with
  | nil => exact fun _ _ _ _ => ⟨_, rfl, Reads.refl _⟩
  | cons part rest ih =>
    intro start L L' hstart
    have hpart := h part List.mem_cons_self
    rw [List.flatMap_cons, List.length_append] at hstart
    cases rest with
    | nil =>
      refine ⟨⟨.outside false, L, L, []⟩, rfl, ?_⟩
      have := reads_part hpart start (by omega) L L' []
      rwa [List.append_nil] at this
    | cons next rest =>
      -- The line end between two parts is a token of its own only if a tag comes after it.
      obtain ⟨c, hend, hrest⟩ := ih (fun part hp => h part (List.mem_cons_of_mem _ hp))
        (start + (Piece.literals part.pieces).length) (L + 1) L (by omega)
      refine ⟨c, hend, ?_⟩
      obtain ⟨chars, hchars⟩ :=
        linesOfParts_eq_append (start + (Piece.literals part.pieces).length) next rest
      rw [hchars] at hrest
      have hline := reads_lineEnd L L chars
      rw [linesOfParts_cons, String.toList_append, String.toList_append, hchars, List.append_assoc]
      have hfirst := reads_part hpart start (by omega) L L'
        ("\n".toList ++ ("\x7b% filter ".toList ++ chars))
      rw [sectionsTokens_cons]
      exact hfirst.trans (hline.trans hrest)

/-- The template of parts that hold only literals has the tokens of their look-ups. -/
theorem ofTemplate_templateAll {parts : List PartBody} (h : HoldsLiterals parts)
    (hcount : (parts.flatMap fun part => Piece.literals part.pieces).length ≤ wholeLimit) :
    Token.ofTemplate (PartBody.templateAll 0 parts) = sectionsTokens 1 0 parts := by
  obtain ⟨c, hend, hreads⟩ := reads_parts h 0 1 1 (by omega)
  unfold Token.ofTemplate
  rw [withoutLastBreak_templateAll]
  exact hreads.tokens_eq hend (by dsimp only; omega)

/-! ## §3 Reading the tokens -/

namespace Reader

variable {lexeme : Lexeme} {line depth fuel : Nat} {rest : List Token}

/-- The item of the table of literals at a number. -/
theorem expr_literal (hdepth : depth + 2 < depthLimit) (hcloses : closes lexeme = true)
    (n start bracket key : Nat) :
    expr (fuel + 39) depth true
        (⟨.word Sql.Piece.literalsName, start⟩ :: ⟨.sign .openBracket, bracket⟩ ::
          ⟨.int n, key⟩ :: ⟨.sign .closeBracket, line⟩ :: ⟨lexeme, line⟩ :: rest) =
      .ok (⟨.item key (.name Sql.Piece.literalsName) (.literal (.int n)), key⟩,
        ⟨lexeme, line⟩ :: rest) := by
  let subscripted : List Token := ⟨.sign .openBracket, bracket⟩ :: ⟨.int n, key⟩ ::
    ⟨.sign .closeBracket, line⟩ :: ⟨lexeme, line⟩ :: rest
  -- There is no operator, so that the expression is its operand: a name with a subscript.
  have hname : simple (fuel + 21) (depth + 1)
      (⟨.word Sql.Piece.literalsName, start⟩ :: subscripted) =
      .ok (⟨.name Sql.Piece.literalsName, start⟩, subscripted) := by
    unfold simple
    exact bind_of_eq_ok (guardDepth_eq_ok (Nat.lt_of_succ_lt hdepth))
  have hnegated : negated (fuel + 22) (depth + 1)
      (⟨.word Sql.Piece.literalsName, start⟩ :: subscripted) =
      .ok (⟨.name Sql.Piece.literalsName, start⟩, subscripted) := by
    unfold negated
    exact (bind_of_eq_ok line_eq_ok).trans hname
  refine expr_of_unary (Nat.lt_of_add_right_lt hdepth) hcloses rfl ?_
  unfold unary
  refine (bind_of_eq_ok line_eq_ok).trans ((bind_of_eq_ok hnegated).trans ?_)
  exact (bind_of_eq_ok (lookUps_item hdepth hcloses n start bracket key)).trans
    (filters_of_closes hcloses)

theorem expression_literal (hdepth : depth + 2 < depthLimit) (start : Nat) :
    expression depth true
        (⟨.word Piece.literalsName, line⟩ :: ⟨.sign .openBracket, line⟩ :: ⟨.int start, line⟩ ::
          ⟨.sign .closeBracket, line⟩ :: ⟨.closeEmit, line⟩ :: rest) =
      .ok (⟨.item line (.name Piece.literalsName) (.literal (.int start)), line⟩,
        ⟨.closeEmit, line⟩ :: rest) :=
  fuelled_eq_ok 39 (by simp only [List.length_cons]; omega)
    fun _ => expr_literal hdepth rfl start line line line

/-- The literals of a part are read up to the tag that ends it. -/
theorem body_literals (hdepth : depth + 2 < depthLimit) (fuel line : Nat) (rest : List Token)
    (count : Nat) :
    ∀ start, body (fuel + count + 1) depth ["endfilter"]
        (literalTokens line start count ++ ⟨.openTag, line⟩ :: ⟨.word "endfilter", line⟩ :: rest) =
      .ok ((literalStmts line start count, "endfilter"), rest) := by
  induction count with
  | zero => exact fun _ => body_end (List.mem_singleton_self _) line
  | succ count ih => exact fun start => body_emit rfl (expression_literal hdepth start) (ih _) line

theorem arguments_text {start : Nat} (hdepth : depth + 1 < depthLimit) (text : String) :
    argumentList depth
        (⟨.text text, line⟩ :: ⟨.sign .closeParen, start⟩ :: rest) =
      .ok ([(.plain, ⟨.literal (.text text), line⟩)], rest) := by
  refine fuelled_eq_ok 23 (by simp only [List.length_cons]; omega) fun fuel => ?_
  let tokens : List Token := ⟨.text text, line⟩ :: ⟨.sign .closeParen, start⟩ :: rest
  have hsign (s : Sign) : accept s tokens = .ok (false, tokens) := rfl
  have htext : expr (fuel + 22) depth true tokens =
      .ok (⟨.literal (.text text), line⟩, ⟨.sign .closeParen, start⟩ :: rest) :=
    expr_text hdepth rfl text line
  have hnone : arguments (fuel + 22) depth false false (⟨.sign .closeParen, start⟩ :: rest) =
      .ok ([], rest) := by
    unfold arguments
    rfl
  unfold arguments
  refine (bind_of_eq_ok (hsign .closeParen)).trans ((bind_of_eq_ok (hsign .closeParen)).trans ?_)
  refine (bind_of_eq_ok (hsign .stars)).trans ((bind_of_eq_ok (hsign .star)).trans ?_)
  exact (bind_of_eq_ok htext).trans (bind_of_eq_ok hnone)

/-- The filter of a part, up to the end of its tag. -/
theorem filterCalls_section (hdepth : depth + 1 < depthLimit) (line : Nat) (text : String)
    (rest : List Token) :
    filterCalls depth
        (⟨.word PartBody.filterName, line⟩ :: ⟨.sign .openParen, line⟩ :: ⟨.text text, line⟩ ::
          ⟨.sign .closeParen, line⟩ :: ⟨.closeTag, line⟩ :: rest) =
      .ok ([⟨line, PartBody.filterName, [(.plain, .literal (.text text))]⟩],
        ⟨.closeTag, line⟩ :: rest) := by
  refine fuelled_eq_ok 2 (by omega) fun fuel => ?_
  have hargs : argumentList depth
      (⟨.text text, line⟩ :: ⟨.sign .closeParen, line⟩ :: ⟨.closeTag, line⟩ :: rest) =
      .ok ([(.plain, ⟨.literal (.text text), line⟩)], ⟨.closeTag, line⟩ :: rest) :=
    arguments_text hdepth text
  let tokens : List Token := ⟨.word PartBody.filterName, line⟩ :: ⟨.sign .openParen, line⟩ ::
    ⟨.text text, line⟩ :: ⟨.sign .closeParen, line⟩ :: ⟨.closeTag, line⟩ :: rest
  have hopen : seesClose tokens = .ok (false, tokens) := rfl
  have hname : word tokens = .ok (PartBody.filterName, tokens.tail) := rfl
  have hparen : accept .openParen tokens.tail = .ok (true, tokens.tail.tail) := rfl
  unfold filterList
  refine (bind_of_eq_ok hopen).trans ((bind_of_eq_ok line_eq_ok).trans ?_)
  refine (bind_of_eq_ok hname).trans ((bind_of_eq_ok hparen).trans ?_)
  exact bind_of_eq_ok hargs

theorem statement_section (hdepth : depth + 2 < depthLimit) (line start : Nat) (part : PartBody)
    (hfuel : (Piece.literals part.pieces).length + 2 ≤ fuel) :
    statement fuel depth line "filter" (sectionTokens line start part rest) =
      .ok (sectionStmt line start part, ⟨.closeTag, line⟩ :: rest) := by
  obtain ⟨fuel, rfl⟩ := Nat.exists_eq_add_of_le' hfuel
  have hcalls := filterCalls_section (Nat.lt_of_succ_lt hdepth) line part.part.name
  have hbody := body_literals hdepth fuel line (⟨.closeTag, line⟩ :: rest)
    (Piece.literals part.pieces).length start
  unfold statement
  exact (bind_of_eq_ok (hcalls _)).trans ((bind_of_eq_ok rfl).trans (bind_of_eq_ok hbody))

theorem length_literalTokens (line count : Nat) :
    ∀ start, (literalTokens line start count).length = 6 * count := by
  induction count with
  | zero => exact fun _ => rfl
  | succ count ih =>
    intro start
    simp only [literalTokens, List.length_cons, ih]
    omega

theorem length_sectionTokens (line start : Nat) (part : PartBody) :
    (sectionTokens line start part rest).length =
      6 * (Piece.literals part.pieces).length + 8 + rest.length := by
  simp only [sectionTokens, List.length_cons, List.length_append, length_literalTokens]
  omega

/-- A template of parts is read statement by statement up to its end.  The fuel that the tokens are
given is enough for the statements and, inside of each, for its literals. -/
theorem body_sections (parts : List PartBody) :
    ∀ line start fuel, (sectionsTokens line start parts).length < fuel →
      body fuel 0 [] (sectionsTokens line start parts) =
        .ok ((sectionsStmts line start parts, ""), []) := by
  induction parts with
  | nil =>
    intro line start fuel hfuel
    obtain ⟨fuel, rfl⟩ := Nat.exists_eq_add_of_lt hfuel
    unfold body
    rfl
  | cons part parts ih =>
    intro line start fuel hfuel
    -- The fuel that is left for a statement exceeds what its literals need.
    have hstmt (fuel : Nat) (hfuel : (Piece.literals part.pieces).length + 2 ≤ fuel)
        (rest : List Token) : statement fuel 1 line "filter" (sectionTokens line start part rest) =
          .ok (sectionStmt line start part, ⟨.closeTag, line⟩ :: rest) :=
      statement_section (by decide) line start part hfuel
    cases parts with
    | nil =>
      simp only [sectionsTokens, List.length_cons, length_sectionTokens, List.length_nil] at hfuel
      obtain ⟨fuel, rfl⟩ := Nat.exists_eq_add_of_le' (show 2 ≤ fuel by omega)
      have hend : body (fuel + 1) 0 [] [] = .ok (([], ""), []) := by
        unfold body
        rfl
      exact body_statement List.not_mem_nil (by decide) (hstmt (fuel + 1) (by omega) _) hend line
    | cons next parts =>
      simp only [sectionsTokens, List.length_cons, length_sectionTokens] at hfuel
      obtain ⟨fuel, rfl⟩ := Nat.exists_eq_add_of_le' (show 2 ≤ fuel by omega)
      have hrest := ih (line + 1) (start + (Piece.literals part.pieces).length) fuel (by omega)
      exact body_statement List.not_mem_nil (by decide) (hstmt (fuel + 1) (by omega) _)
        (body_raw "\n" hrest) line

end Reader

/-! ## §4 The template as a whole -/

/-- Does the statement neither give a part of the template a name nor bind anything? -/
def Stmt.isAnonymous (stmt : Stmt) : Prop :=
  stmt.block? = none ∧ stmt.hidesBlock = false ∧ stmt.bindsNothing = false

theorem isAnonymous_literals (line count : Nat) :
    ∀ start, ∀ stmt ∈ allStmts (literalStmts line start count), stmt.isAnonymous := by
  induction count with
  | zero => exact fun _ _ h => absurd h List.not_mem_nil
  | succ count ih =>
    intro start stmt h
    rw [literalStmts, allStmts, Stmt.inside, List.nil_append] at h
    rcases List.mem_cons.mp h with rfl | h
    · exact ⟨rfl, rfl, rfl⟩
    · exact ih _ stmt h

/-- The statement of a part, followed by statements without names. -/
theorem isAnonymous_section (line start : Nat) (part : PartBody) {rest : List Stmt}
    (hrest : ∀ stmt ∈ allStmts rest, stmt.isAnonymous) :
    ∀ stmt ∈ allStmts (sectionStmt line start part :: rest), stmt.isAnonymous := by
  intro stmt h
  rw [allStmts, sectionStmt, Stmt.inside] at h
  rcases List.mem_cons.mp h with rfl | h
  · exact ⟨rfl, rfl, rfl⟩
  rcases List.mem_append.mp h with h | h
  · exact isAnonymous_literals _ _ _ stmt h
  · exact hrest stmt h

theorem isAnonymous_sections (parts : List PartBody) :
    ∀ line start, ∀ stmt ∈ allStmts (sectionsStmts line start parts), stmt.isAnonymous := by
  induction parts with
  | nil => exact fun _ _ _ h => absurd h List.not_mem_nil
  | cons part parts ih =>
    intro line start
    cases parts with
    | nil => exact isAnonymous_section line start part fun _ h => absurd h List.not_mem_nil
    | cons next parts =>
      refine isAnonymous_section line start part fun stmt h => ?_
      rw [allStmts, Stmt.inside, List.nil_append] at h
      rcases List.mem_cons.mp h with rfl | h
      · exact ⟨rfl, rfl, rfl⟩
      · exact ih _ _ stmt h

theorem blocksOf_eq_nil {stmts : List Stmt} (h : ∀ stmt ∈ allStmts stmts, stmt.isAnonymous) :
    blocksOf stmts = [] :=
  List.filterMap_eq_nil_iff.mpr fun stmt hmem => (h stmt hmem).1

theorem read_eq_ok {file source : String} {stmts : List Stmt}
    (hbody : Reader.fuelled (fun fuel => Reader.body fuel 0 []) (Token.ofTemplate source) =
      .ok ((stmts, ""), []))
    (h : ∀ stmt ∈ allStmts stmts, stmt.isAnonymous) : read file source = .ok stmts := by
  have hhidden : (allStmts stmts).any Stmt.hidesBlock = false :=
    List.any_eq_false.mpr fun stmt hmem => Bool.not_eq_true _ ▸ (h stmt hmem).2.1
  have hbound : (allStmts stmts).any Stmt.bindsNothing = false :=
    List.any_eq_false.mpr fun stmt hmem => Bool.not_eq_true _ ▸ (h stmt hmem).2.2
  have hsound : hasSoundBlocks stmts = true := by
    rw [hasSoundBlocks, blocksOf_eq_nil h, hhidden]
    rfl
  simp only [read, hbody, hsound, hbound, Bool.not_true, Bool.false_eq_true, if_false]

/-- The template of parts that hold only literals is read as look-ups of their literals. -/
theorem read_templateAll (file : String) {parts : List PartBody} (h : HoldsLiterals parts)
    (hcount : (parts.flatMap fun part => Piece.literals part.pieces).length ≤ wholeLimit) :
    read file (PartBody.templateAll 0 parts) = .ok (sectionsStmts 1 0 parts) := by
  refine read_eq_ok ?_ (isAnonymous_sections parts 1 0)
  rw [ofTemplate_templateAll h hcount]
  exact Reader.body_sections parts 1 0 _ (by omega)

end SqlWorkflow.Template
