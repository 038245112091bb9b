import SqlWorkflow.Template.Reader

/-!
# Reading what stands before a closing token

An expression goes on for as long as the tokens after it can belong to it.  A token that closes
something ends every expression before it, at every level of operators.

- **§1** Closing tokens, and what the readers of operators, look-ups and filters do there.
- **§2** Constants and look-ups of items before a closing token.
- **§3** One statement more of a body.
-/

namespace SqlWorkflow.Template.Reader

variable {α β : Type}

/-- What is read after a part that was read. -/
theorem bind_of_eq_ok {x : Reader α} {f : α → Reader β} {tokens rest : List Token} {a : α}
    (h : x tokens = .ok (a, rest)) : (x >>= f) tokens = f a rest := by
  change (x tokens).bind _ = _
  rw [h]
  rfl

theorem line_eq_ok {tokens : List Token} :
    line tokens = .ok ((tokens.head?.map (·.line)).getD 1, tokens) := rfl

theorem peek_eq_ok {tokens : List Token} :
    peek tokens = .ok (tokens.head?.map (·.lexeme), tokens) := rfl

theorem skip_eq_ok {tokens : List Token} : skip tokens = .ok ((), tokens.tail) := rfl

/-! ## §1 Closing tokens -/

/-- Does the token end every expression before it? -/
def closes : Lexeme → Bool
  | .closeEmit | .closeTag | .sign .closeBracket | .sign .closeParen | .sign .comma => true
  | .word "as" => true
  | _ => false

variable {lexeme : Lexeme} {line start depth fuel : Nat} {tokens rest : List Token} {o : Operand}

theorem joint?_of_closes (h : closes lexeme = true) (l : Level) : l.joint? lexeme = none := by
  unfold closes at h
  split at h
  case h_7 => contradiction
  all_goals cases l <;> rfl

theorem acceptWord_of_closes (h : closes lexeme = true) {word : String} (hword : word ≠ "as") :
    acceptWord word (⟨lexeme, line⟩ :: rest) = .ok (false, ⟨lexeme, line⟩ :: rest) := by
  unfold closes at h
  split at h
  case h_6 => simp [acceptWord, hword.symm]
  case h_7 => contradiction
  all_goals rfl

theorem chain_of_closes (h : closes lexeme = true) (l : Level) :
    chain (fuel + 1) depth l o (⟨lexeme, line⟩ :: rest) = .ok (o, ⟨lexeme, line⟩ :: rest) := by
  unfold chain
  refine (bind_of_eq_ok peek_eq_ok).trans ?_
  simp only [List.head?_cons, Option.map_some, joint?_of_closes h l]
  split
  · exact bind_of_eq_ok (acceptWord_of_closes h (by decide))
  · rfl

theorem chooseAfter_of_closes (h : closes lexeme = true) :
    chooseAfter (fuel + 1) depth o (⟨lexeme, line⟩ :: rest) = .ok (o, ⟨lexeme, line⟩ :: rest) := by
  unfold chooseAfter
  exact bind_of_eq_ok (acceptWord_of_closes h (by decide))

theorem lookUps_of_closes (h : closes lexeme = true) (start : Nat) :
    lookUps (fuel + 1) depth start o (⟨lexeme, line⟩ :: rest) =
      .ok (o, ⟨lexeme, line⟩ :: rest) := by
  unfold closes at h
  unfold lookUps
  split at h
  case h_7 => contradiction
  all_goals rfl

theorem filters_of_closes (h : closes lexeme = true) :
    filters (fuel + 1) depth o (⟨lexeme, line⟩ :: rest) = .ok (o, ⟨lexeme, line⟩ :: rest) := by
  unfold closes at h
  unfold filters
  split at h
  case h_7 => contradiction
  all_goals rfl

theorem level_of_next {l tighter : Level} (hnext : l.next? = some tighter) (hl : l ≠ .not)
    (hcloses : closes lexeme = true)
    (h : level fuel depth tighter tokens = .ok (o, ⟨lexeme, line⟩ :: rest)) :
    level (fuel + 2) depth l tokens = .ok (o, ⟨lexeme, line⟩ :: rest) := by
  have hoperand : operand (fuel + 1) depth l tokens = .ok (o, ⟨lexeme, line⟩ :: rest) := by
    unfold operand
    rw [hnext]
    exact h
  rw [level.eq_3 _ _ _ hl]
  exact (bind_of_eq_ok hoperand).trans (chain_of_closes hcloses l)

theorem level_power (hcloses : closes lexeme = true)
    (h : unary fuel depth tokens = .ok (o, ⟨lexeme, line⟩ :: rest)) :
    level (fuel + 2) depth .power tokens = .ok (o, ⟨lexeme, line⟩ :: rest) := by
  have hoperand : operand (fuel + 1) depth .power tokens = .ok (o, ⟨lexeme, line⟩ :: rest) := by
    unfold operand
    exact h
  rw [level.eq_3 _ _ _ (by decide)]
  exact (bind_of_eq_ok hoperand).trans (chain_of_closes hcloses .power)

theorem guardDepth_eq_ok (h : depth < depthLimit) : guardDepth depth tokens = .ok ((), tokens) := by
  unfold guardDepth
  rw [if_pos h]
  rfl

/-- An expression that is no more than an operand goes through all levels. -/
theorem expr_of_unary (hdepth : depth < depthLimit) (hcloses : closes lexeme = true)
    (hnot : acceptWord "not" tokens = .ok (false, tokens))
    (h : unary fuel (depth + 1) tokens = .ok (o, ⟨lexeme, line⟩ :: rest)) :
    expr (fuel + 16) depth true tokens = .ok (o, ⟨lexeme, line⟩ :: rest) := by
  -- From the tightest level to the loosest one; only `not` does not start with an operand.
  have hpower := level_power hcloses h
  have hproduct := level_of_next (l := .product) rfl (by decide) hcloses hpower
  have hconcat := level_of_next (l := .concat) rfl (by decide) hcloses hproduct
  have hsum := level_of_next (l := .sum) rfl (by decide) hcloses hconcat
  have hcompare := level_of_next (l := .compare) rfl (by decide) hcloses hsum
  have hnots : level (fuel + 11) (depth + 1) .not tokens = .ok (o, ⟨lexeme, line⟩ :: rest) := by
    unfold level
    exact (bind_of_eq_ok hnot).trans hcompare
  have hand := level_of_next (l := .and) rfl (by decide) hcloses hnots
  have hor := level_of_next (l := .or) rfl (by decide) hcloses hand
  unfold expr
  exact (bind_of_eq_ok (guardDepth_eq_ok hdepth)).trans
    ((bind_of_eq_ok hor).trans (chooseAfter_of_closes hcloses))

/-! ## §2 Constants and items -/

/-- A simple expression before a closing token is an expression. -/
theorem expr_of_simple (hdepth : depth < depthLimit) (hcloses : closes lexeme = true)
    (hnot : acceptWord "not" tokens = .ok (false, tokens))
    (hminus : accept .minus tokens = .ok (false, tokens))
    (h : simple fuel (depth + 1) tokens = .ok (o, ⟨lexeme, line⟩ :: rest)) :
    expr (fuel + 18) depth true tokens = .ok (o, ⟨lexeme, line⟩ :: rest) := by
  refine expr_of_unary hdepth hcloses hnot ?_
  have hnegated : negated (fuel + 1) (depth + 1) tokens = .ok (o, ⟨lexeme, line⟩ :: rest) := by
    unfold negated
    exact (bind_of_eq_ok line_eq_ok).trans ((bind_of_eq_ok hminus).trans h)
  unfold unary
  refine (bind_of_eq_ok line_eq_ok).trans ((bind_of_eq_ok hnegated).trans ?_)
  exact (bind_of_eq_ok (lookUps_of_closes hcloses _)).trans (filters_of_closes hcloses)

theorem expr_int (hdepth : depth + 1 < depthLimit) (hcloses : closes lexeme = true)
    (n start : Nat) :
    expr (fuel + 19) depth true (⟨.int n, start⟩ :: ⟨lexeme, line⟩ :: rest) =
      .ok (⟨.literal (.int n), start⟩, ⟨lexeme, line⟩ :: rest) := by
  refine expr_of_simple (Nat.lt_of_succ_lt hdepth) hcloses rfl rfl ?_
  unfold simple
  exact bind_of_eq_ok (guardDepth_eq_ok hdepth)

theorem expr_text (hdepth : depth + 1 < depthLimit) (hcloses : closes lexeme = true)
    (text : String) (start : Nat) :
    expr (fuel + 21) depth true (⟨.text text, start⟩ :: ⟨lexeme, line⟩ :: rest) =
      .ok (⟨.literal (.text text), start⟩, ⟨lexeme, line⟩ :: rest) := by
  have htexts : texts (fuel + 2) (⟨.text text, start⟩ :: ⟨lexeme, line⟩ :: rest) =
      .ok ([text], ⟨lexeme, line⟩ :: rest) := by
    unfold closes at hcloses
    split at hcloses
    case h_7 => contradiction
    all_goals rfl
  refine expr_of_simple (Nat.lt_of_succ_lt hdepth) hcloses rfl rfl ?_
  unfold simple
  refine (bind_of_eq_ok (guardDepth_eq_ok hdepth)).trans ((bind_of_eq_ok line_eq_ok).trans ?_)
  refine (bind_of_eq_ok peek_eq_ok).trans ((bind_of_eq_ok htexts).trans ?_)
  rw [show String.join [text] = text from String.empty_append]
  rfl

/-- The item of a value at a number. -/
theorem lookUps_item (hdepth : depth + 1 < depthLimit) (hcloses : closes lexeme = true)
    (n start bracket key : Nat) :
    lookUps (fuel + 22) depth start o
        (⟨.sign .openBracket, bracket⟩ :: ⟨.int n, key⟩ :: ⟨.sign .closeBracket, line⟩ ::
          ⟨lexeme, line⟩ :: rest) =
      .ok (⟨.item key o.tree (.literal (.int n)), key⟩, ⟨lexeme, line⟩ :: rest) := by
  have hkey : expr (fuel + 19) depth true
      (⟨.int n, key⟩ :: ⟨.sign .closeBracket, line⟩ :: ⟨lexeme, line⟩ :: rest) =
      .ok (⟨.literal (.int n), key⟩, ⟨.sign .closeBracket, line⟩ :: ⟨lexeme, line⟩ :: rest) :=
    expr_int hdepth rfl n key
  have hpart : part (fuel + 20) depth [.colon]
      (⟨.int n, key⟩ :: ⟨.sign .closeBracket, line⟩ :: ⟨lexeme, line⟩ :: rest) =
      .ok (some ⟨.literal (.int n), key⟩,
        ⟨.sign .closeBracket, line⟩ :: ⟨lexeme, line⟩ :: rest) := by
    unfold part
    exact (bind_of_eq_ok peek_eq_ok).trans (bind_of_eq_ok hkey)
  have hsubscript : subscript (fuel + 21) depth o
      (⟨.int n, key⟩ :: ⟨.sign .closeBracket, line⟩ :: ⟨lexeme, line⟩ :: rest) =
      .ok (⟨.item key o.tree (.literal (.int n)), key⟩, ⟨lexeme, line⟩ :: rest) := by
    unfold subscript
    exact bind_of_eq_ok hpart
  unfold lookUps
  refine (bind_of_eq_ok line_eq_ok).trans ((bind_of_eq_ok peek_eq_ok).trans ?_)
  exact (bind_of_eq_ok hsubscript).trans (lookUps_of_closes hcloses _)

/-! ## §3 Statements -/

/-- What is read with enough fuel is read with the fuel that the tokens ahead are given. -/
theorem fuelled_eq_ok {read : Nat → Reader α} {a : α} (n : Nat) (hn : n ≤ 24 * tokens.length + 24)
    (h : ∀ fuel, read (fuel + n) tokens = .ok (a, rest)) :
    fuelled read tokens = .ok (a, rest) := by
  have hfuel := h (24 * tokens.length + 24 - n)
  rwa [Nat.sub_add_cancel hn] at hfuel

variable {ends : List String} {stmts : List Stmt} {last : String} {after : List Token}

theorem body_raw (text : String) (hrest : body fuel depth ends rest = .ok ((stmts, last), after)) :
    body (fuel + 1) depth ends (⟨.raw text, line⟩ :: rest) =
      .ok ((.raw text :: stmts, last), after) := by
  unfold body
  refine (bind_of_eq_ok peek_eq_ok).trans ((bind_of_eq_ok skip_eq_ok).trans ?_)
  exact bind_of_eq_ok hrest

/-- A value is written that is no call of a part of the template. -/
theorem body_emit (hplain : emitted o.tree = .emit o.tree)
    (hvalue : expression depth true tokens = .ok (o, ⟨.closeEmit, line⟩ :: rest))
    (hrest : body fuel depth ends rest = .ok ((stmts, last), after)) (start : Nat) :
    body (fuel + 1) depth ends (⟨.openEmit, start⟩ :: tokens) =
      .ok ((.emit o.tree :: stmts, last), after) := by
  unfold body
  refine (bind_of_eq_ok peek_eq_ok).trans ((bind_of_eq_ok skip_eq_ok).trans ?_)
  refine (bind_of_eq_ok hvalue).trans ((bind_of_eq_ok rfl).trans ((bind_of_eq_ok hrest).trans ?_))
  rw [← hplain]
  rfl

theorem body_end {keyword : String} (h : keyword ∈ ends) (start : Nat) :
    body (fuel + 1) depth ends (⟨.openTag, start⟩ :: ⟨.word keyword, line⟩ :: rest) =
      .ok (([], keyword), rest) := by
  unfold body
  refine (bind_of_eq_ok peek_eq_ok).trans ?_
  change (if ends.contains keyword = true then _ else _ : Reader _) rest = _
  rw [if_pos (List.contains_iff_mem.2 h)]
  rfl

/-- What a statement and those after it are read as. -/
theorem body_statement_eq_map {keyword : String} {stmt : Stmt} (hkeyword : keyword ∉ ends)
    (hdepth : depth < depthLimit)
    (hstmt : statement fuel (depth + 1) line keyword tokens =
      .ok (stmt, ⟨.closeTag, start⟩ :: rest)) (first : Nat) :
    body (fuel + 1) depth ends (⟨.openTag, first⟩ :: ⟨.word keyword, line⟩ :: tokens) =
      (body fuel depth ends rest).map fun ((stmts, last), after) =>
        ((stmt :: stmts, last), after) := by
  conv => lhs; unfold body
  refine (bind_of_eq_ok peek_eq_ok).trans ?_
  change (if ends.contains keyword = true then _ else _ : Reader _) tokens = _
  rw [if_neg (mt List.contains_iff_mem.1 hkeyword)]
  refine (bind_of_eq_ok (guardDepth_eq_ok hdepth)).trans
    ((bind_of_eq_ok hstmt).trans ((bind_of_eq_ok rfl).trans ?_))
  change (body fuel depth ends rest).bind _ = _
  cases body fuel depth ends rest <;> rfl

theorem body_statement {keyword : String} {stmt : Stmt} (hkeyword : keyword ∉ ends)
    (hdepth : depth < depthLimit)
    (hstmt : statement fuel (depth + 1) line keyword tokens =
      .ok (stmt, ⟨.closeTag, start⟩ :: rest))
    (hrest : body fuel depth ends rest = .ok ((stmts, last), after)) (first : Nat) :
    body (fuel + 1) depth ends (⟨.openTag, first⟩ :: ⟨.word keyword, line⟩ :: tokens) =
      .ok ((stmt :: stmts, last), after) := by
  rw [body_statement_eq_map hkeyword hdepth hstmt, hrest]
  rfl

end SqlWorkflow.Template.Reader
