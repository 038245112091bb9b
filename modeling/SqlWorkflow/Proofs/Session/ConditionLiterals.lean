import SqlWorkflow.Proofs.Session.CheckQueries
import SqlWorkflow.Sql.Lexer

/-!
# Conditions as literals

The query for a condition names the condition in a literal.  Quotes are escaped there, so that the
literal does not end at a quote of the condition.  Backslashes are not, although a backslash escapes
whatever comes after it.

- **§1** Reading a literal: a backslash stands for the character after it, and the first quote that
  is not escaped ends the literal (`readLiteral?_eq`).
- **§2** Reading a text whose quotes have been escaped.
- **§3** The literal in the query for a condition is read back as the condition if and only if there
  is no backslash in the condition (`readsBack_conditionQuery_iff`).
-/

namespace SqlWorkflow

namespace Sql

/-! ## §1 Reading -/

/-- What the inside of a quotation stands for. -/
def unescape : List Char → List Char
  | '\\' :: c :: cs => c :: unescape cs
  | c :: cs => c :: unescape cs
  | [] => []

/-- What the quotation stands for that has begun with `q`, and the text after it. -/
def readLiteral? (q : Char) : List Char → Option (List Char × List Char)
  | [] => none
  | '\\' :: [] => none
  | '\\' :: c :: cs => (readLiteral? q cs).map fun (s, rest) => (c :: s, rest)
  | c :: cs =>
    if c = q then some ([], cs) else (readLiteral? q cs).map fun (s, rest) => (c :: s, rest)

variable {q c : Char} {cs s rest : List Char}

@[simp] theorem readLiteral?_escape (q c : Char) (cs : List Char) :
    readLiteral? q ('\\' :: c :: cs) =
      (readLiteral? q cs).map fun (s, rest) => (c :: s, rest) := by
  rw [readLiteral?]

theorem readLiteral?_close (hq : q ≠ '\\') (cs : List Char) :
    readLiteral? q (q :: cs) = some ([], cs) := by
  rw [readLiteral?]
  · simp
  · simp [hq]
  · simp [hq]

theorem readLiteral?_cons (hc : c ≠ '\\') (hq : c ≠ q) (cs : List Char) :
    readLiteral? q (c :: cs) = (readLiteral? q cs).map fun (s, rest) => (c :: s, rest) := by
  rw [readLiteral?]
  · simp [hq]
  · simp [hc]
  · simp [hc]

/-- A character that the first patterns of a scanner leave over is no backslash. -/
theorem ne_backslash (hlone : c = '\\' → cs = [] → False)
    (hescape : ∀ d ds, c = '\\' → cs = d :: ds → False) : c ≠ '\\' := by
  intro hc
  cases cs with
  | nil => exact hlone hc rfl
  | cons d ds => exact hescape d ds hc rfl

theorem ne_nil_of_quotation? (h : quotation? q cs = some (s, rest)) : s ≠ [] := by
  fun_induction quotation? q cs generalizing s rest with
  | case1 => cases h
  | case2 => cases h
  | case3 c cs ih =>
    obtain ⟨⟨s', rest'⟩, -, heq⟩ := Option.map_eq_some_iff.1 h
    cases heq
    exact List.cons_ne_nil _ _
  | case4 =>
    cases h
    exact List.cons_ne_nil _ _
  | case5 =>
    obtain ⟨⟨s', rest'⟩, -, heq⟩ := Option.map_eq_some_iff.1 h
    cases heq
    exact List.cons_ne_nil _ _

/-- The quotation ends where it does in the code of a placeholder, and stands for its inside without
the backslashes that escape something. -/
theorem readLiteral?_eq (hq : q ≠ '\\') (cs : List Char) :
    readLiteral? q cs = (quotation? q cs).map fun (s, rest) => (unescape s.dropLast, rest) := by
  fun_induction quotation? q cs with
  | case1 => rfl
  | case2 => rfl
  | case3 c cs ih =>
    rw [readLiteral?_escape, ih]
    cases hinside : quotation? q cs with
    | none => rfl
    | some found =>
      -- The closing quote is the last character of what is found, and stays so.
      have hne := ne_nil_of_quotation? hinside
      simp [List.dropLast_cons_of_ne_nil, hne, unescape]
  | case4 => simp [readLiteral?_close hq, unescape]
  | case5 c cs hlone hescape hne ih =>
    have hc := ne_backslash hlone hescape
    rw [readLiteral?_cons hc hne, ih]
    cases hinside : quotation? q cs with
    | none => rfl
    | some found =>
      have hne := ne_nil_of_quotation? hinside
      simp [List.dropLast_cons_of_ne_nil, hne, unescape, hc]

/-- A string ends where a quotation does. -/
theorem quotation?_of_quotedRun? (h : quotedRun? q cs = some (s, .closed rest)) :
    quotation? q cs = some (s, rest) := by
  -- Both functions take the text apart in the same cases.
  fun_induction quotedRun? q cs generalizing s rest with
  | case1 => cases h
  | case2 => cases h
  | case3 c cs ih =>
    obtain ⟨⟨s', stop⟩, hs, heq⟩ := Option.map_eq_some_iff.1 h
    cases heq
    rw [quotation?, ih hs]
    rfl
  | case4 cs hlone hescape =>
    cases h
    rw [quotation?, if_pos rfl]
    · exact hlone
    · exact hescape
  | case5 => cases h
  | case6 c cs hlone hescape hne _ ih =>
    obtain ⟨⟨s', stop⟩, hs, heq⟩ := Option.map_eq_some_iff.1 h
    cases heq
    rw [quotation?, if_neg hne, ih hs]
    · rfl
    · exact hlone
    · exact hescape

end Sql

namespace Entry

open Sql

/-! ## §2 Escaped quotes -/

/-- A text with its quotes escaped. -/
abbrev quotesEscaped (cs : List Char) : List Char := Text.replaceChar '\'' ['\\', '\''] cs

/-- Without a backslash the text is read back. -/
theorem readLiteral?_quotesEscaped {cs : List Char} (h : '\\' ∉ cs) (rest : List Char) :
    readLiteral? '\'' (quotesEscaped cs ++ '\'' :: rest) = some (cs, rest) := by
  induction cs with
  | nil => exact readLiteral?_close (by decide) rest
  | cons c cs ih =>
    rw [List.mem_cons, not_or] at h
    rw [quotesEscaped, Text.replaceChar]
    split
    · next hquote => simp [ih h.2, hquote]
    · next hquote =>
      rw [List.cons_append, readLiteral?_cons (Ne.symm h.1) hquote, ih h.2]
      rfl

/-- What has been read begins with the character that was read first. -/
theorem exists_of_map_cons_eq_some {c : Char} {found : Option (List Char × List Char)}
    {s after : List Char}
    (h : (found.map fun (s, rest) => (c :: s, rest)) = some (s, after)) :
    ∃ s', found = some (s', after) ∧ c :: s' = s := by
  obtain ⟨⟨s', after'⟩, hfound, heq⟩ := Option.map_eq_some_iff.1 h
  cases heq
  exact ⟨s', hfound, rfl⟩

theorem eq_zero_of_cons_eq {c : Char} {s cs : List Char} {k : Nat} (hc : c ≠ '\\')
    (h : c :: s = List.replicate k '\\' ++ cs) : k = 0 ∧ c :: s = cs := by
  cases k with
  | zero => exact ⟨rfl, h⟩
  | succ k =>
    rw [List.replicate_succ, List.cons_append, List.cons.injEq] at h
    exact absurd h.1 hc

/-- A text with a backslash is not read back, and neither is one with backslashes before it that the
reader was to have read already. -/
theorem no_backslash_of_readLiteral? {cs rest after : List Char} {k : Nat}
    (h : readLiteral? '\'' (quotesEscaped cs ++ '\'' :: rest) =
      some (List.replicate k '\\' ++ cs, after)) : k = 0 ∧ '\\' ∉ cs := by
  -- A backslash of the text escapes what comes after it, so the reader goes on behind that.
  induction cs using unescape.induct generalizing k with
  | case1 c cs ih =>
    exfalso
    by_cases hquote : c = '\''
    · -- The backslash before the quote is read as the second of two, so the quote is the end.
      simp only [hquote, quotesEscaped, Text.replaceChar, List.cons_append, List.nil_append,
        if_neg (show '\\' ≠ '\'' by decide), if_pos, readLiteral?_escape,
        readLiteral?_close (show '\'' ≠ '\\' by decide), Option.map_some, Option.some.injEq,
        Prod.mk.injEq] at h
      have hlength := congrArg List.length h.1
      simp only [List.length_append, List.length_replicate, List.length_cons, List.length_nil]
        at hlength
      omega
    · simp only [quotesEscaped, Text.replaceChar, List.cons_append,
        if_neg (show '\\' ≠ '\'' by decide), if_neg hquote, readLiteral?_escape] at h
      obtain ⟨s, hs, heq⟩ := exists_of_map_cons_eq_some h
      have hcount : ∀ ds : List Char,
          List.replicate k '\\' ++ '\\' :: ds = List.replicate (k + 1) '\\' ++ ds := by
        simp [List.replicate_succ']
      -- Of the two only the second is read, so one more is to have been read before.
      rw [hcount, List.replicate_succ, List.cons_append, List.cons.injEq] at heq
      obtain ⟨rfl, rfl⟩ := heq
      rw [hcount] at hs
      exact absurd (ih hs).1 (Nat.succ_ne_zero k)
  | case2 c cs hplain ih =>
    by_cases hc : c = '\\'
    · -- The last character is a backslash, so the closing quote is escaped.
      obtain rfl : cs = [] := by
        cases cs with
        | nil => rfl
        | cons d ds => exact absurd rfl (hplain d ds hc)
      simp only [hc, quotesEscaped, Text.replaceChar, List.cons_append, List.nil_append,
        if_neg (show '\\' ≠ '\'' by decide), readLiteral?_escape] at h
      obtain ⟨s, -, heq⟩ := exists_of_map_cons_eq_some h
      have hread := (eq_zero_of_cons_eq (by decide) heq).2
      simp at hread
    · have hread : readLiteral? '\'' (quotesEscaped (c :: cs) ++ '\'' :: rest) =
          (readLiteral? '\'' (quotesEscaped cs ++ '\'' :: rest)).map
            fun (s, rest) => (c :: s, rest) := by
        rw [quotesEscaped, Text.replaceChar]
        split
        · next hquote => simp [hquote]
        · next hquote => exact readLiteral?_cons hc hquote _
      rw [hread] at h
      obtain ⟨s, hs, heq⟩ := exists_of_map_cons_eq_some h
      obtain ⟨rfl, hsame⟩ := eq_zero_of_cons_eq hc heq
      obtain ⟨-, rfl⟩ := List.cons.inj hsame
      have hrest := @ih 0 hs
      exact ⟨rfl, by simp [hrest.2, Ne.symm hc]⟩
  | case3 =>
    rw [quotesEscaped, Text.replaceChar, List.nil_append, readLiteral?_close (by decide)] at h
    cases k with
    | zero => exact ⟨rfl, List.not_mem_nil⟩
    | succ k => simp [List.replicate_succ] at h

/-- A backslash before a quote escapes the one that was to escape the quote, which ends the
literal. -/
example :
    readLiteral? '\'' (quotesEscaped "name != 'it\\'s'".toList ++ ['\'']) =
      some ("name != 'it\\".toList, "s\\''".toList) := by
  decide +kernel

/-! ## §3 Queries -/

/-- The condition that a query names, and the text after the literal. -/
def conditionLiteral? (query : String) : Option (String × String) :=
  match Text.dropLead? "SELECT".toList query.toList with
  | none => none
  | some cs =>
    match cs.dropWhile Text.isBlank with
    | '\'' :: cs =>
      (readLiteral? '\'' cs).map fun (s, rest) => (String.ofList s, String.ofList rest)
    | _ => none

/-- The query names the condition. -/
def ReadsBack (query condition : String) : Prop :=
  ∃ rest, conditionLiteral? query = some (condition, " AS failing_row_condition" ++ rest)

/-- What is read of the query for a condition. -/
theorem conditionLiteral?_conditionQuery (table : Target) (condition : String) :
    ∃ after, conditionLiteral? (conditionQuery table condition) =
      (readLiteral? '\'' (quotesEscaped condition.toList ++ '\'' ::
        (" AS failing_row_condition" ++ after).toList)).map
          fun (s, rest) => (String.ofList s, String.ofList rest) := by
  -- The texts are cut where the reader stops.
  have hopening : "SELECT\n  '" = "SELECT" ++ "\n  '" := by decide
  have hclosing : "' AS failing_row_condition,\n  *\nFROM " =
      "'" ++ (" AS failing_row_condition" ++ ",\n  *\nFROM ") := by decide
  obtain ⟨after, hquery⟩ : ∃ after, conditionQuery table condition = "SELECT" ++ ("\n  '" ++
      (quoteFree condition ++ ("'" ++ (" AS failing_row_condition" ++ after)))) := by
    refine ⟨",\n  *\nFROM " ++ markerOf table ++ "\nWHERE NOT (" ++ condition ++ ")\n", ?_⟩
    show "SELECT\n  '" ++ quoteFree condition ++ "' AS failing_row_condition,\n  *\nFROM " ++
      markerOf table ++ "\nWHERE NOT (" ++ condition ++ ")\n" = _
    rw [hopening, hclosing]
    repeat rw [String.append_assoc]
  have hlead : ∀ cs, Text.dropLead? "SELECT".toList ("SELECT".toList ++ cs) = some cs :=
    fun _ => rfl
  have hblanks : ∀ cs, ("\n  '".toList ++ cs).dropWhile Text.isBlank = '\'' :: cs := fun _ => rfl
  refine ⟨after, ?_⟩
  rw [hquery, conditionLiteral?, String.toList_append, hlead]
  simp only
  rw [String.toList_append, hblanks, String.toList_append, String.toList_append, quoteFree,
    String.toList_ofList]
  rfl

/-- The query for a condition names the condition if and only if no backslash is in it. -/
theorem readsBack_conditionQuery_iff (table : Target) (condition : String) :
    ReadsBack (conditionQuery table condition) condition ↔ '\\' ∉ condition.toList := by
  obtain ⟨after, hliteral⟩ := conditionLiteral?_conditionQuery table condition
  unfold ReadsBack
  rw [hliteral]
  constructor
  · intro h
    obtain ⟨rest, hread⟩ := h
    obtain ⟨⟨s, rest'⟩, hs, heq⟩ := Option.map_eq_some_iff.1 hread
    -- What has been read is the condition itself, with no backslash before it.
    have hs' : s = condition.toList := by
      rw [← (Prod.mk.inj heq).1, String.toList_ofList]
    rw [hs'] at hs
    exact (@no_backslash_of_readLiteral? _ _ _ 0 hs).2
  · intro h
    refine ⟨after, ?_⟩
    rw [readLiteral?_quotesEscaped h]
    simp only [Option.map_some, String.ofList_toList]

/-- All conditions of a table are named if and only if no backslash is in the conditions and columns
that the author wrote. -/
theorem readsBack_conditions_iff (table : Target) (a : TableAssertions) :
    (∀ c ∈ conditions a, ReadsBack (conditionQuery table c) c) ↔
      (∀ c ∈ a.rowConditions, '\\' ∉ c.toList) ∧ ∀ column ∈ a.nonNull, '\\' ∉ column.toList := by
  -- No backslash is added to a column.
  have hcolumn : ∀ column : String,
      '\\' ∉ (column ++ " IS NOT NULL").toList ↔ '\\' ∉ column.toList := by
    intro column
    rw [String.toList_append, List.mem_append, not_or, and_iff_left (by decide)]
  simp only [readsBack_conditionQuery_iff, conditions, List.forall_mem_append, List.forall_mem_map,
    hcolumn]

end Entry

end SqlWorkflow
