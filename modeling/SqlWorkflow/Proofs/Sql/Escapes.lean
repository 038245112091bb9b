import SqlWorkflow.Sql.Escape
import Mathlib.Tactic.Common

/-!
# Escaped backticks

A text is guarded if each of its backticks has a backslash directly before it.  To escape a text is
to guard it by no more than is needed: the escaped text is the only guarded one that comes from the
text by backslashes put directly before backticks that have none (`eq_escapeBackticks_iff`).  So
nothing is put in a second time (`escapeBackticks_minimal`).

A text is read after some other text, of which only the last character matters; `none` stands for
the start.

- **§1** Guarded texts.
- **§2** Texts with backslashes put in.
- **§3** The escaped text.
-/

namespace SqlWorkflow.Sql

variable {prev : Option Char} {cs ds : List Char}

/-! ## §1 Guarded texts -/

/-- Each backtick of a text that stands after the character `prev` has a backslash directly before
it. -/
def IsGuarded (prev : Option Char) (cs : List Char) : Prop :=
  ∀ before after, cs = before ++ '`' :: after → before.getLast?.or prev = some '\\'

theorem isGuarded_nil (prev : Option Char) : IsGuarded prev [] := by
  intro before after heq
  simp at heq

theorem isGuarded_cons (prev : Option Char) (c : Char) (cs : List Char) :
    IsGuarded prev (c :: cs) ↔ (c = '`' → prev = some '\\') ∧ IsGuarded (some c) cs := by
  constructor
  · intro h
    refine ⟨?_, fun before after heq => ?_⟩
    · rintro rfl
      exact h [] cs rfl
    · have hlast := h (c :: before) after (congrArg (c :: ·) heq)
      rwa [List.getLast?_cons, Option.some_or, ← Option.or_some] at hlast
  · rintro ⟨hfirst, hrest⟩ before after heq
    cases before with
    | nil => exact hfirst (List.cons.inj heq).1
    | cons d before =>
      rw [List.cons_append, List.cons.injEq] at heq
      obtain ⟨rfl, heq⟩ := heq
      rw [List.getLast?_cons, Option.some_or, ← Option.or_some]
      exact hrest before after heq

/-- The escaped text is guarded. -/
theorem isGuarded_escapeFrom (prev : Option Char) (cs : List Char) :
    IsGuarded prev (escapeFrom prev cs) := by
  induction cs generalizing prev with
  | nil => exact isGuarded_nil prev
  | cons c cs ih =>
    rw [escapeFrom]
    split
    case isTrue hbare =>
      rw [isGuarded_cons, isGuarded_cons]
      exact ⟨by simp, fun _ => rfl, ih (some c)⟩
    case isFalse hkept =>
      rw [isGuarded_cons]
      exact ⟨fun htick => Decidable.byContradiction fun hprev => hkept ⟨htick, hprev⟩, ih (some c)⟩

/-! ## §2 Inserted backslashes -/

/-- The second text is the first one, which stands after the character `prev`, with backslashes put
directly before some of those backticks that have no backslash directly before them. -/
inductive Inserts : Option Char → List Char → List Char → Prop where
  | nil (prev : Option Char) : Inserts prev [] []
  /-- A character stays as it is. -/
  | keep {prev : Option Char} {c : Char} {cs ds : List Char} (rest : Inserts (some c) cs ds) :
      Inserts prev (c :: cs) (c :: ds)
  /-- A backtick that has no backslash directly before it gets one. -/
  | escape {prev : Option Char} {cs ds : List Char} (hbare : prev ≠ some '\\')
      (rest : Inserts (some '`') cs ds) : Inserts prev ('`' :: cs) ('\\' :: '`' :: ds)

/-- No backslash need be put in. -/
theorem Inserts.refl (prev : Option Char) (cs : List Char) : Inserts prev cs cs := by
  induction cs generalizing prev with
  | nil => exact .nil prev
  | cons c cs ih => exact .keep (ih (some c))

/-- The escaped text is the text with backslashes put in. -/
theorem inserts_escapeFrom (prev : Option Char) (cs : List Char) :
    Inserts prev cs (escapeFrom prev cs) := by
  induction cs generalizing prev with
  | nil => exact .nil prev
  | cons c cs ih =>
    rw [escapeFrom]
    split
    case isTrue hbare =>
      obtain ⟨rfl, hprev⟩ := hbare
      exact .escape hprev (ih (some '`'))
    case isFalse => exact .keep (ih (some c))

/-- No other text with backslashes put in is guarded. -/
theorem Inserts.eq_escapeFrom (h : Inserts prev cs ds) (hguarded : IsGuarded prev ds) :
    ds = escapeFrom prev cs := by
  induction h with
  | nil prev => rfl
  | @keep prev c cs ds rest ih =>
    rw [isGuarded_cons] at hguarded
    -- A backtick that is kept has its backslash in the text.
    have hkept : ¬ (c = '`' ∧ prev ≠ some '\\') := fun hbare => hbare.2 (hguarded.1 hbare.1)
    rw [escapeFrom, if_neg hkept, ← ih hguarded.2]
  | @escape prev cs ds hbare rest ih =>
    rw [isGuarded_cons, isGuarded_cons] at hguarded
    rw [escapeFrom, if_pos ⟨rfl, hbare⟩, ← ih hguarded.2.2]

/-! ## §3 The escaped text -/

/-- Of the texts that come from a text by backslashes put in, the escaped one is the one that is
guarded. -/
theorem eq_escapeBackticks_iff (s t : String) :
    t = escapeBackticks s ↔ IsGuarded none t.toList ∧ Inserts none s.toList t.toList := by
  have hchars : (escapeBackticks s).toList = escapeFrom none s.toList := String.toList_ofList
  rw [← String.toList_inj, hchars]
  constructor
  · intro h
    rw [h]
    exact ⟨isGuarded_escapeFrom none s.toList, inserts_escapeFrom none s.toList⟩
  · rintro ⟨hguarded, hfrom⟩
    exact hfrom.eq_escapeFrom hguarded

/-- Escaping changes nothing more the second time.  In the escaped text each backtick has a
backslash directly before it, and the escaped text is the given one with backslashes put in, each
directly before a backtick that has none directly before it. -/
theorem escapeBackticks_minimal (s : String) :
    escapeBackticks (escapeBackticks s) = escapeBackticks s ∧
      IsGuarded none (escapeBackticks s).toList ∧
      Inserts none s.toList (escapeBackticks s).toList := by
  have hescaped := (eq_escapeBackticks_iff s (escapeBackticks s)).1 rfl
  refine ⟨?_, hescaped⟩
  -- What is guarded needs no more backslashes, and no other text is guarded and comes from it.
  exact ((eq_escapeBackticks_iff _ _).2 ⟨hescaped.1, .refl none _⟩).symm

/-- The first of two backticks after a backslash is escaped already, the second one is not. -/
example : escapeBackticks "\\``" = "\\`\\`" := by
  decide

end SqlWorkflow.Sql
