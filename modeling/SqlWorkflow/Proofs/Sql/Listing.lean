import SqlWorkflow.Sql.Program
import Mathlib.Tactic.Common

/-!
# The literals of a listing

The listing of a program shows each part between backticks.  Whoever reads such a literal takes a
backslash together with the character after it, and ends at the first backtick that is left.  The
escapes look at one character only, the one before a backtick, and never at the end of the text.

So a part is shown as a literal that ends where the part ends if and only if the backslashes before
each of its backticks are none or an odd number, and those at its end are an even number
(`isLiteral_literalOf_iff`, and `listing_eq` for the literals of a listing).  Without a backslash in
the part the literal is always right (`isDelimited_of_not_mem`).

An escaped text is followed character by character, with the number of backslashes that stand just
before the next one (`isClosed_replicate_escapeFrom_iff`).

- **§1** Where a literal ends.
- **§2** The backslashes before a place.
- **§3** Escaped texts.
- **§4** Listings.
-/

namespace SqlWorkflow.Sql

variable {c : Char} {cs : List Char}

/-! ## §1 Literals -/

/-- With the text and a backtick after it, a literal that has begun with a backtick ends there. -/
def IsClosed (cs : List Char) : Prop := quotation? '`' (cs ++ ['`']) = some (cs ++ ['`'], [])

instance (cs : List Char) : Decidable (IsClosed cs) :=
  inferInstanceAs (Decidable (quotation? '`' (cs ++ ['`']) = some (cs ++ ['`'], [])))

theorem isClosed_nil : IsClosed [] := by decide

/-- A backslash at the end escapes the backtick that was to end the literal. -/
theorem not_isClosed_backslash : ¬ IsClosed ['\\'] := by decide

/-- A backtick ends the literal. -/
theorem not_isClosed_backtick (cs : List Char) : ¬ IsClosed ('`' :: cs) := by
  intro h
  rw [IsClosed, List.cons_append, quotation?] at h
  · simp at h
  · simp
  · simp

/-- A text that is read to its end before the next one is read does not matter. -/
theorem isClosed_append_iff (lead : List Char)
    (hread : quotation? '`' (lead ++ (cs ++ ['`'])) =
      (quotation? '`' (cs ++ ['`'])).map fun (s, rest) => (lead ++ s, rest)) :
    IsClosed (lead ++ cs) ↔ IsClosed cs := by
  rw [IsClosed, List.append_assoc, hread, IsClosed]
  constructor
  · intro h
    obtain ⟨⟨s, rest⟩, hs, heq⟩ := Option.map_eq_some_iff.1 h
    simp only [Prod.mk.injEq, List.append_cancel_left_eq] at heq
    rw [hs, heq.1, heq.2]
  · intro h
    rw [h]
    rfl

/-- What a backslash escapes does not matter. -/
theorem isClosed_escape_iff (c : Char) (cs : List Char) :
    IsClosed ('\\' :: c :: cs) ↔ IsClosed cs := by
  apply isClosed_append_iff ['\\', c]
  rw [List.cons_append, List.singleton_append, quotation?]
  rfl

/-- Other characters neither escape nor end anything. -/
theorem isClosed_cons_iff (hslash : c ≠ '\\') (htick : c ≠ '`') (cs : List Char) :
    IsClosed (c :: cs) ↔ IsClosed cs := by
  apply isClosed_append_iff [c]
  rw [List.singleton_append, quotation?, if_neg htick]
  · simp
  · exact fun hc => absurd hc hslash
  · exact fun _ _ hc => absurd hc hslash

/-- Backslashes are read in pairs. -/
theorem isClosed_replicate_iff (k : Nat) (cs : List Char) :
    IsClosed (List.replicate (2 * k) '\\' ++ cs) ↔ IsClosed cs := by
  induction k with
  | zero => rfl
  | succ k ih => rw [Nat.mul_succ, List.replicate_succ, List.replicate_succ, List.cons_append,
      List.cons_append, isClosed_escape_iff, ih]

/-- Of the backslashes before a text at most one is not read in a pair. -/
theorem isClosed_replicate_mod_two_iff (count : Nat) (cs : List Char) :
    IsClosed (List.replicate count '\\' ++ cs) ↔
      IsClosed (List.replicate (count % 2) '\\' ++ cs) := by
  conv_lhs => rw [← Nat.div_add_mod count 2, ← List.replicate_append_replicate, List.append_assoc]
  exact isClosed_replicate_iff _ _

/-! ## §2 Backslashes -/

/-- The number of backslashes at the end of a text that stands after `start` of them. -/
def backslashesAfter (start : Nat) (cs : List Char) : Nat :=
  cs.foldl (fun count c => if c = '\\' then count + 1 else 0) start

/-- Before each backtick there are no backslashes or an odd number, and at the end an even one. -/
def IsDelimited (start : Nat) (cs : List Char) : Prop :=
  (∀ before after, cs = before ++ '`' :: after →
    backslashesAfter start before = 0 ∨ backslashesAfter start before % 2 = 1) ∧
    backslashesAfter start cs % 2 = 0

theorem isDelimited_nil (start : Nat) : IsDelimited start [] ↔ start % 2 = 0 := by
  simp [IsDelimited, backslashesAfter]

theorem isDelimited_cons (start : Nat) (c : Char) (cs : List Char) :
    IsDelimited start (c :: cs) ↔
      (c = '`' → start = 0 ∨ start % 2 = 1) ∧
        IsDelimited (if c = '\\' then start + 1 else 0) cs := by
  constructor
  · rintro ⟨hticks, hend⟩
    refine ⟨?_, fun before after heq => ?_, hend⟩
    · rintro rfl
      exact hticks [] cs rfl
    · exact hticks (c :: before) after (congrArg (c :: ·) heq)
  · rintro ⟨hfirst, hticks, hend⟩
    refine ⟨fun before after heq => ?_, hend⟩
    cases before with
    | nil => exact hfirst (List.cons.inj heq).1
    | cons d before =>
      rw [List.cons_append, List.cons.injEq] at heq
      obtain ⟨rfl, heq⟩ := heq
      exact hticks before after heq

/-! ## §3 Escapes -/

/-- The escaped text, after as many backslashes as were read before it, is a literal that ends where
the text does if and only if the backslashes stand as they must. -/
theorem isClosed_replicate_escapeFrom_iff {prev : Option Char} {start : Nat}
    (hprev : prev = some '\\' ↔ 0 < start) (cs : List Char) :
    IsClosed (List.replicate start '\\' ++ escapeFrom prev cs) ↔ IsDelimited start cs := by
  -- `start` counts the backslashes just before `cs`, of which `prev` tells only if there are any.
  induction cs generalizing prev start with
  | nil =>
    rw [isDelimited_nil, isClosed_replicate_mod_two_iff, escapeFrom]
    rcases Nat.mod_two_eq_zero_or_one start with heven | hodd
    · simp [heven, isClosed_nil]
    · simp [hodd, not_isClosed_backslash]
  | cons c cs ih =>
    rw [isDelimited_cons]
    by_cases hslash : c = '\\'
    · subst hslash
      have hrest : List.replicate start '\\' ++ escapeFrom prev ('\\' :: cs) =
          List.replicate (start + 1) '\\' ++ escapeFrom (some '\\') cs := by
        rw [escapeFrom, if_neg (by simp), List.replicate_succ', List.append_assoc,
          List.singleton_append]
      rw [hrest, ih (by simp)]
      simp
    · have hrest := @ih (some c) 0 (by simp [hslash])
      rw [List.replicate_zero, List.nil_append] at hrest
      rw [if_neg hslash, ← hrest]
      by_cases htick : c = '`'
      · -- A backtick is escaped already unless no backslash is before it.
        subst htick
        by_cases hstart : start = 0
        · subst hstart
          have hescaped :
              escapeFrom prev ('`' :: cs) = '\\' :: '`' :: escapeFrom (some '`') cs := by
            rw [escapeFrom, if_pos ⟨rfl, by simp [hprev]⟩]
          simp [hescaped, isClosed_escape_iff]
        · have hkept : escapeFrom prev ('`' :: cs) = '`' :: escapeFrom (some '`') cs := by
            rw [escapeFrom, if_neg (by simp [hprev, Nat.pos_of_ne_zero hstart])]
          rw [hkept, isClosed_replicate_mod_two_iff]
          rcases Nat.mod_two_eq_zero_or_one start with heven | hodd
          · simp [heven, hstart, not_isClosed_backtick]
          · simp [hodd, isClosed_escape_iff]
      · -- The last of an odd number of backslashes escapes the character.
        have hkept : escapeFrom prev (c :: cs) = c :: escapeFrom (some c) cs := by
          rw [escapeFrom, if_neg (by simp [htick])]
        rw [hkept, isClosed_replicate_mod_two_iff]
        rcases Nat.mod_two_eq_zero_or_one start with heven | hodd
        · simp [heven, htick, isClosed_cons_iff hslash htick]
        · simp [hodd, htick, isClosed_escape_iff]

/-- Without backslashes an escaped text is never cut short and never runs on. -/
theorem isDelimited_of_not_mem (h : '\\' ∉ cs) : IsDelimited 0 cs := by
  induction cs with
  | nil => exact (isDelimited_nil 0).2 rfl
  | cons c cs ih =>
    rw [List.mem_cons, not_or] at h
    rw [isDelimited_cons, if_neg (Ne.symm h.1)]
    exact ⟨fun _ => .inl rfl, ih h.2⟩

/-! ## §4 Listings -/

/-- The text is a literal between backticks, which ends with the text. -/
def IsLiteral (text : String) : Prop :=
  match text.toList with
  | '`' :: cs => quotation? '`' cs = some (cs, [])
  | _ => False

/-- Some SQL between backticks, as a listing shows it. -/
def literalOf (sql : String) : String := "`" ++ escapeBackticks sql ++ "`"

/-- A listing shows the code, and then each part with its name as a literal on lines of its own. -/
theorem listing_eq (p : ActionProgram) :
    p.listing = p.codeLines ++ String.join (p.parts.map fun body =>
      body.part.name ++ ": " ++ literalOf body.source ++ "\n") := by
  have hopening : ": `" = ": " ++ "`" := by decide
  have hclosing : "`\n" = "`" ++ "\n" := by decide
  rw [ActionProgram.listing, hopening, hclosing]
  simp only [literalOf, String.append_assoc]

/-- What a listing shows of some SQL is a literal if and only if the backslashes of the SQL stand as
they must. -/
theorem isLiteral_literalOf_iff (sql : String) :
    IsLiteral (literalOf sql) ↔ IsDelimited 0 sql.toList := by
  have htext : (literalOf sql).toList = '`' :: (escapeFrom none sql.toList ++ ['`']) := by
    simp [literalOf, escapeBackticks]
  rw [IsLiteral, htext]
  exact @isClosed_replicate_escapeFrom_iff none 0 (by simp) sql.toList

/-- A backslash at the end escapes the closing backtick, and two before a backtick leave it to end
the literal. -/
example : ¬ IsDelimited 0 "select 1 \\".toList ∧ ¬ IsDelimited 0 "select '\\\\`'".toList := by
  constructor
  · exact fun h => absurd h.2 (by decide +kernel)
  · exact fun h => absurd (h.1 "select '\\\\".toList ['\''] (by decide +kernel)) (by decide +kernel)

end SqlWorkflow.Sql
