import SqlWorkflow.Proofs.Sql.Openings

/-!
# Where a definition file is wrong

A file that cannot be read is refused with a message, a line and a column.  The place is one inside
the file, and what stands there is what the message speaks of (`exists_place_of_lex_eq_error`).

A scan that fails returns the text from where the culprit starts.  That text is a part of what the
scan was given, up to its end, and it starts as the message says; so each scan hands on the culprit
of a scan that it calls, and only the scan of the whole file turns it into a line and a column.

- **§1** The lines of a text.
- **§2** Lines, columns and the text at a place.
- **§3** What a message speaks of.
- **§4** The culprit of each scan.
- **§5** The place that is reported for a whole file.
-/

namespace SqlWorkflow

/-! ## §1 Lines -/

namespace Text

/-- The last part of a text goes on with the first part of what follows it. -/
theorem splitAt_append {sep : Char} {ds first : List Char} {more : List (List Char)}
    (h : splitAt sep ds = first :: more) (cs : List Char) :
    ∃ full last, splitAt sep cs = full ++ [last] ∧
      splitAt sep (cs ++ ds) = full ++ (last ++ first) :: more := by
  -- `first` and `more` stay what they are; only what is before them grows.
  induction cs with
  | nil => exact ⟨[], [], rfl, h⟩
  | cons c cs ih =>
    obtain ⟨full, last, hcs, happend⟩ := ih
    by_cases hc : c = sep
    · refine ⟨[] :: full, last, ?_, ?_⟩
      · rw [splitAt, if_pos hc, hcs, List.cons_append]
      · rw [List.cons_append, splitAt, if_pos hc, happend, List.cons_append]
    · -- The character belongs to the first part, which may be the last one too.
      cases full with
      | nil =>
        refine ⟨[], c :: last, ?_, ?_⟩
        · rw [splitAt, if_neg hc, hcs]
          rfl
        · rw [List.cons_append, splitAt, if_neg hc, happend]
          rfl
      | cons part parts =>
        refine ⟨(c :: part) :: parts, last, ?_, ?_⟩
        · rw [splitAt, if_neg hc, hcs]
          rfl
        · rw [List.cons_append, splitAt, if_neg hc, happend]
          rfl

/-- The last part of a text is what stands after its last separator. -/
theorem takeWhile_reverse_of_splitAt {sep : Char} {cs last : List Char} {full : List (List Char)}
    (h : splitAt sep cs = full ++ [last]) :
    cs.reverse.takeWhile (· != sep) = last.reverse := by
  have hlast : sep ∉ last.reverse := by
    rw [List.mem_reverse]
    exact not_mem_of_mem_splitAt (h ▸ List.mem_concat_self)
  rw [← joinAt_splitAt sep cs, h]
  by_cases hfull : full = []
  · rw [hfull, List.nil_append, joinAt, List.takeWhile_eq_self_iff.2 (bne_of_not_mem hlast)]
  · rw [joinAt_concat hfull, List.reverse_append, List.reverse_cons, List.append_assoc]
    exact takeWhile_append_cons hlast _

/-- The first part of a text is not empty if the text starts with another character. -/
theorem exists_splitAt_cons {sep c : Char} (hc : c ≠ sep) (cs : List Char) :
    ∃ first more, splitAt sep (c :: cs) = (c :: first) :: more := by
  rw [splitAt, if_neg hc]
  cases hs : splitAt sep cs with
  | nil => exact absurd hs (splitAt_ne_nil sep cs)
  | cons first more => exact ⟨first, more, rfl⟩

end Text

namespace Sql

/-! ## §2 Places -/

/-- The text from a line and a column on, both counted from one; `none` if there is no character at
the place. -/
def textAt? (line column : Nat) (cs : List Char) : Option (List Char) :=
  match (Text.splitAt '\n' cs).drop (line - 1) with
  | [] => none
  | first :: more =>
    if 0 < line ∧ 0 < column ∧ column ≤ first.length then
      some (Text.joinAt '\n' (first.drop (column - 1) :: more))
    else none

/-- At the place after a text stands what follows the text. -/
theorem textAt?_positionAfter (before : List Char) {c : Char} (hc : c ≠ '\n') (after : List Char) :
    textAt? (positionAfter before).1 (positionAfter before).2 (before ++ c :: after) =
      some (c :: after) := by
  obtain ⟨first, more, hafter⟩ := Text.exists_splitAt_cons hc after
  obtain ⟨full, last, hbefore, hwhole⟩ := Text.splitAt_append hafter before
  -- The place is on the line after `full`, and as far in it as `last` is long.
  have hline : before.count '\n' = full.length := by
    have hlength := Text.length_splitAt '\n' before
    rw [hbefore, List.length_append, List.length_singleton] at hlength
    omega
  have hcolumn : (before.reverse.takeWhile (· != '\n')).length = last.length := by
    rw [Text.takeWhile_reverse_of_splitAt hbefore, List.length_reverse]
  simp only [positionAfter, hline, hcolumn, textAt?, hwhole, Nat.add_sub_cancel,
    List.drop_left]
  rw [if_pos (by simp)]
  rw [← hafter, Text.joinAt_splitAt]

/-! ## §3 Messages -/

/-- The message speaks of what the text starts with. -/
inductive SpeaksOf : String → List Char → Prop where
  | string {q : Char} (hq : q ∈ ['\'', '"', '`']) (rest : List Char) :
    SpeaksOf "Unterminated string literal" (q :: rest)
  | comment (rest : List Char) : SpeaksOf "Unterminated comment" ('/' :: '*' :: rest)
  | codeBlock (rest : List Char) : SpeaksOf "Unterminated code block" ('/' :: '*' :: rest)
  | placeholder (rest : List Char) :
    SpeaksOf "Unterminated placeholder" ('$' :: '\x7b' :: rest)
  /-- A section starts with its keyword. -/
  | block (keyword : Keyword) (rest : List Char) :
    SpeaksOf ("Unterminated " ++ keyword.text ++ " block") (keyword.text.toList ++ rest)
  | brace (rest : List Char) : SpeaksOf "Unexpected '\x7d'" ('\x7d' :: rest)

/-- No message speaks of a line break, or of nothing. -/
theorem SpeaksOf.exists_cons {message : String} {cs : List Char} (h : SpeaksOf message cs) :
    ∃ c rest, cs = c :: rest ∧ c ≠ '\n' := by
  cases h with
  | string hq rest => exact ⟨_, rest, rfl, by rintro rfl; exact absurd hq (by decide)⟩
  | comment | codeBlock | placeholder | brace => exact ⟨_, _, rfl, by decide⟩
  | block keyword rest =>
    have hne : keyword.text.toList ≠ [] ∧ '\n' ∉ keyword.text.toList := by
      rcases keyword with (_ | _) | (_ | _ | _ | _) <;> decide
    obtain ⟨c, cs, hkeyword⟩ := List.exists_cons_of_ne_nil hne.1
    rw [hkeyword, List.mem_cons, not_or] at hne
    exact ⟨c, cs ++ rest, by rw [hkeyword, List.cons_append], Ne.symm hne.2.1⟩

/-! ## §4 Culprits -/

/-- The culprit is in the text, and starts as its message says. -/
def Culprit.IsIn (e : Culprit) (cs : List Char) : Prop :=
  e.rest <:+ cs ∧ SpeaksOf e.fault.message e.rest

variable {place : Place} {prev : Option Char} {cs ds start lead : List Char} {e : Culprit}

theorem Culprit.IsIn.of_suffix (h : e.IsIn ds) (hsuffix : ds <:+ cs) : e.IsIn cs :=
  ⟨h.1.trans hsuffix, h.2⟩

/-- Whatever is wrong with the code of a placeholder, the placeholder is the culprit. -/
theorem scanPlaceholder_eq_error (h : scanPlaceholder start cs = .error e) :
    e = ⟨.unterminatedPlaceholder, start⟩ := by
  unfold scanPlaceholder at h
  split at h
  · cases h
  · cases h
    rfl

/-- Inside quotes the culprit is the quoted text itself or a placeholder in it. -/
theorem isIn_of_scanQuoted {q : Char} (hstart : SpeaksOf "Unterminated string literal" start)
    (hsuffix : cs <:+ start) (h : scanQuoted q start lead cs = .error e) : e.IsIn start := by
  -- `start` is the same in every round, and what is left to scan stays a part of it.
  fun_induction scanQuoted q start lead cs with
  | case1 =>
    cases h
    exact ⟨List.suffix_refl _, hstart⟩
  | case2 => cases h
  | case3 lead cs s rest hrun e' hplaceholder =>
    cases h
    rw [scanPlaceholder_eq_error hplaceholder]
    have hrest : '$' :: '\x7b' :: rest <:+ cs := ⟨s, source_quotedRun? hrun⟩
    exact ⟨hrest.trans hsuffix, .placeholder rest⟩
  | case4 lead cs s rest hrun expr rest' hplaceholder ih =>
    have hrest : '$' :: '\x7b' :: rest <:+ cs := ⟨s, source_quotedRun? hrun⟩
    have hrest' : rest' <:+ '$' :: '\x7b' :: rest := ⟨_, source_scanPlaceholder hplaceholder⟩
    exact ih ((hrest'.trans hrest).trans hsuffix) (eq_error_of_map_eq_error h)

theorem isIn_of_scanFragment {c : Char} (h : scanFragment place prev c cs = .error e) :
    e.IsIn (c :: cs) := by
  unfold scanFragment at h
  split at h
  · cases h
  · split at h
    · next hquote =>
      exact isIn_of_scanQuoted (.string (by simpa using hquote) cs) (List.suffix_cons c cs)
        (eq_error_of_map_eq_error h)
    · split at h
      · cases h
      · split at h
        · cases h
        · cases h
          exact ⟨List.suffix_refl _, .comment _⟩
      · rw [scanPlaceholder_eq_error (eq_error_of_map_eq_error h)]
        exact ⟨List.suffix_refl _, .placeholder _⟩
      · cases h

/-- In the SQL of a section the culprit is that of a fragment. -/
theorem isIn_of_scanSection (h : scanSection prev cs = .error e) : e.IsIn cs := by
  fun_induction scanSection prev cs with
  | case1 => cases h
  | case2 => cases h
  | case3 prev c cs _ e' hfragment =>
    cases h
    exact isIn_of_scanFragment hfragment
  | case4 prev c cs _ f rest hfragment ih =>
    exact (ih (eq_error_of_map_eq_error h)).of_suffix ⟨_, source_scanFragment hfragment⟩

/-- A section that does not end is the culprit itself, unless something in it is. -/
theorem isIn_of_scanSectionOf {keyword : Keyword} {opening : List Char}
    (hkeyword : keyword.text.toList <+: start) (hsuffix : cs <:+ start)
    (h : scanSectionOf keyword start opening cs = .error e) : e.IsIn start := by
  have hblock : SpeaksOf (LexFault.unterminatedSection keyword).message start := by
    obtain ⟨rest, rfl⟩ := hkeyword
    exact .block keyword rest
  -- Code that is cut off blames its keyword; of SQL something inside may be blamed first.
  cases keyword with
  | code kind =>
    simp only [scanSectionOf] at h
    split at h
    · cases h
    · cases h
      exact ⟨List.suffix_refl _, hblock⟩
  | sql kind =>
    simp only [scanSectionOf] at h
    split at h
    · next hsection =>
      cases h
      exact (isIn_of_scanSection hsection).of_suffix hsuffix
    · cases h
      exact ⟨List.suffix_refl _, hblock⟩
    · cases h

theorem isIn_of_codeBlock? (h : codeBlock? cs = some (.error e)) : e.IsIn cs := by
  unfold codeBlock? at h
  split at h
  · split at h <;> cases h
  · split at h
    · split at h
      · cases h
      · cases h
        exact ⟨List.suffix_refl _, .codeBlock _⟩
    · cases h
  · cases h

theorem isIn_of_scanNode {dialect : Dialect} {c : Char}
    (h : scanNode dialect prev c cs = .error e) : e.IsIn (c :: cs) := by
  cases dialect with
  | plain =>
    simp only [scanNode] at h
    split at h
    · next hfound =>
      rw [h] at hfound
      exact isIn_of_codeBlock? hfound
    · exact isIn_of_scanFragment (eq_error_of_map_eq_error h)
  | sectioned =>
    simp only [scanNode] at h
    split at h
    · next hbrace =>
      cases h
      exact ⟨List.suffix_refl _, hbrace ▸ .brace cs⟩
    · split at h
      · next keyword opening rest hsection =>
        -- The scan goes on behind the opening, but what it blames may be the keyword.
        obtain ⟨_, hopening⟩ := exists_opening_of_section? hsection
        have hsource : opening ++ rest = c :: cs := (source_section? hsection).1
        refine isIn_of_scanSectionOf (hopening.isPrefix.trans ⟨rest, hsource⟩) ⟨opening, hsource⟩ h
      · exact isIn_of_scanFragment (eq_error_of_map_eq_error h)

theorem isIn_of_scanFile {dialect : Dialect} (h : scanFile dialect prev cs = .error e) :
    e.IsIn cs := by
  fun_induction scanFile dialect prev cs with
  | case1 => cases h
  | case2 prev c cs e' hnode =>
    cases h
    exact isIn_of_scanNode hnode
  | case3 prev c cs node rest hnode ih =>
    exact (ih (eq_error_of_map_eq_error h)).of_suffix ⟨_, source_scanNode hnode⟩

/-! ## §5 Whole files -/

/-- The place of a culprit is where the text of the culprit is. -/
theorem textAt?_locate (h : e.IsIn cs) :
    textAt? (e.locate cs).line (e.locate cs).column cs = some e.rest := by
  obtain ⟨⟨before, rfl⟩, hmessage⟩ := h
  obtain ⟨c, after, hrest, hc⟩ := hmessage.exists_cons
  have hplace : e.locate (before ++ e.rest) =
      ⟨e.fault, (positionAfter before).1, (positionAfter before).2⟩ := by
    simp [Culprit.locate]
  rw [hplace, hrest]
  exact textAt?_positionAfter before hc after

/-- A file that cannot be read is refused with one of the messages, and with the line and the column
at which there stands what the message speaks of. -/
theorem exists_place_of_lex_eq_error {dialect : Dialect} {source : String} {e : LexError}
    (h : lex dialect source = .error e) :
    ∃ what rest, e.message = what ++ " at line " ++ toString e.line ++ ", column " ++
        toString e.column ∧
      textAt? e.line e.column source.toList = some rest ∧ SpeaksOf what rest := by
  unfold lex at h
  split at h
  · cases h
  · next culprit hscan =>
    cases h
    have hin : culprit.IsIn source.toList := isIn_of_scanFile hscan
    exact ⟨_, culprit.rest, rfl, textAt?_locate hin, hin.2⟩

/-- A placeholder in quotes in a section: the brace and the quote after it are in the code of the
placeholder, which has no end. -/
theorem exists_place_of_lex_eq_error_placeholder :
    let source := "-- été\npre_operations \x7b\n  SELECT 'ü $\x7bf(\"\x7d\")' \x7d"
    ∃ e what, lex .sectioned source = .error e ∧
      e.message = "Unterminated placeholder at line 3, column 13" ∧
      textAt? 3 13 source.toList = some "$\x7bf(\"\x7d\")' \x7d".toList ∧
      SpeaksOf what "$\x7bf(\"\x7d\")' \x7d".toList := by
  intro source
  have hlex : lex .sectioned source = .error ⟨.unterminatedPlaceholder, 3, 13⟩ := by
    decide +kernel
  have htext : textAt? 3 13 source.toList = some "$\x7bf(\"\x7d\")' \x7d".toList := by
    decide +kernel
  obtain ⟨what, rest, -, hrest, hspeaks⟩ := exists_place_of_lex_eq_error hlex
  have hsame : "$\x7bf(\"\x7d\")' \x7d".toList = rest := Option.some.inj (htext.symm.trans hrest)
  exact ⟨_, what, hlex, by decide +kernel, htext, hsame ▸ hspeaks⟩

end Sql

end SqlWorkflow
