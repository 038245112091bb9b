import SqlWorkflow.Proofs.Json.Text
import SqlWorkflow.Template.Token

/-!
# The tokens on the way

The tokens of a template are found one after the other.  What is read between two positions does
not depend on what comes after the second one, so that the tokens of a template are put together
from those of its parts.

- **§1** Reading from one position to another (`Cursor.Reads`).
- **§2** The digits of a number (`reads_number`).
-/

namespace SqlWorkflow.Template.Token

/-! ## §1 Positions -/

namespace Cursor

variable {c c' c'' : Cursor} {found more : List Token}

/-- From the first position `found` is read on the way to the other one, in no more steps than
there are characters between them. -/
def Reads (c : Cursor) (found : List Token) (c' : Cursor) : Prop :=
  ∃ steps, steps + c'.ahead.length ≤ c.ahead.length ∧
    ∀ fuel, tokens (fuel + steps) c = found ++ tokens fuel c'

theorem Reads.refl (c : Cursor) : Reads c [] c := ⟨0, by simp, fun _ => rfl⟩

theorem Reads.of_step (hstep : c.step = (found, c'))
    (hlength : c'.ahead.length < c.ahead.length) : Reads c found c' := by
  refine ⟨1, by omega, fun fuel => ?_⟩
  have hahead : c.ahead.isEmpty = false := by
    rw [List.isEmpty_eq_false_iff]
    exact List.ne_nil_of_length_pos (by omega)
  simp only [tokens, hahead, Bool.false_eq_true, if_false, hstep]

theorem Reads.trans (h : Reads c found c') (h' : Reads c' more c'') :
    Reads c (found ++ more) c'' := by
  obtain ⟨steps, hsteps, hfound⟩ := h
  obtain ⟨steps', hsteps', hmore⟩ := h'
  refine ⟨steps' + steps, by omega, fun fuel => ?_⟩
  rw [← Nat.add_assoc, hfound, hmore, List.append_assoc]

/-- What is read on the way are the first tokens, and there is enough fuel for the others. -/
theorem Reads.exists_tokens_eq (h : Reads c found c') {fuel : Nat} (hfuel : c.ahead.length < fuel) :
    ∃ fuel', c'.ahead.length < fuel' ∧ tokens fuel c = found ++ tokens fuel' c' := by
  obtain ⟨steps, hsteps, hfound⟩ := h
  refine ⟨fuel - steps, by omega, ?_⟩
  rw [← hfound, Nat.sub_add_cancel (by omega)]

/-- What is read on the way to the end are all tokens. -/
theorem Reads.tokens_eq (h : Reads c found c') (hend : c'.ahead = []) {fuel : Nat}
    (hfuel : c.ahead.length < fuel) : tokens fuel c = found := by
  obtain ⟨fuel', hfuel', htokens⟩ := h.exists_tokens_eq hfuel
  obtain ⟨more, rfl⟩ := Nat.exists_eq_add_of_lt hfuel'
  rw [htokens, tokens, hend, List.isEmpty_nil, if_pos rfl, List.append_nil]

end Cursor

/-! ## §2 Digits -/

theorem digit?_digitChar : ∀ n < 10, Word.digit? 10 n.digitChar = some n := by
  decide

/-- The digits of a number denote it. -/
theorem natural?_toDigits (n : Nat) : Word.natural? 10 (Nat.toDigits 10 n) = some n := by
  unfold Word.natural?
  rw [if_neg (by simp [Nat.toDigits_ne_nil])]
  induction n using Nat.strongRecOn with
  | ind n ih =>
    rw [Nat.toDigits_eq_if (by decide)]
    split
    · next hlt => simp [digit?_digitChar n hlt]
    · next hge =>
      rw [List.foldl_append, ih (n / 10) (by omega), List.foldl_cons, List.foldl_nil,
        digit?_digitChar _ (Nat.mod_lt n (by decide))]
      exact congrArg some (Nat.div_add_mod' n 10)

/-- Does a number end before the character, whatever stands after it? -/
def endsNumber (c : Char) : Bool := c = ']' || c = ' '

/-- A whole number goes on as long as there are digits. -/
theorem numberChars_digits {digits : List Char} (h : ∀ c ∈ digits, c.isDigit = true) {c : Char}
    (hend : endsNumber c = true) (rest : List Char) :
    numberChars false .whole (digits ++ c :: rest) = (digits, .whole, c :: rest) := by
  induction digits with
  | nil =>
    have hnone : NumberStage.next false .whole c = none := by
      simp only [endsNumber, Bool.or_eq_true, decide_eq_true_eq] at hend
      rcases hend with rfl | rfl <;> rfl
    rw [List.nil_append, numberChars, hnone]
  | cons d ds ih =>
    have hd : NumberStage.next false .whole d = some .whole := by
      simp [NumberStage.next, h d List.mem_cons_self]
    rw [List.cons_append, numberChars, hd]
    simp only [ih fun c hc => h c (List.mem_cons_of_mem d hc)]

theorem number_toDigits {n : Nat} (hn : n < wholeLimit) {c : Char} (hend : endsNumber c = true)
    (rest : List Char) : number (Nat.toDigits 10 n ++ c :: rest) = (.int n, c :: rest) := by
  have hdigits : ∀ c ∈ Nat.toDigits 10 n, c.isDigit = true := fun c hc =>
    Nat.isDigit_of_mem_toDigits (by decide) (by decide) hc
  have hplain : (Nat.toDigits 10 n).filter (· != '_') = Nat.toDigits 10 n := by
    refine List.filter_eq_self.2 fun c hc => bne_iff_ne.2 ?_
    rintro rfl
    exact absurd (hdigits '_' hc) (by decide)
  have hlast : (Nat.toDigits 10 n).getLast? ≠ some '_' := fun hlast =>
    absurd (hdigits '_' (List.mem_of_getLast? hlast)) (by decide)
  unfold number
  extract_lets base
  -- No digit but the only one is a zero, and what ends a number marks no base.
  have hbase : base = 10 := by
    have hzero := Json.toDigits_ne_zero_cons n
    rcases hlist : Nat.toDigits 10 n with _ | ⟨d, _ | ⟨e, ds⟩⟩
    · exact absurd hlist Nat.toDigits_ne_nil
    · simp only [base, hlist, List.cons_append, List.nil_append]
      split
      · next h =>
        obtain ⟨-, h⟩ := List.cons.inj h
        obtain ⟨rfl, -⟩ := List.cons.inj h
        simp only [endsNumber, Bool.or_eq_true, decide_eq_true_eq] at hend
        rcases hend with rfl | rfl <;> rfl
      · rfl
    · simp only [base, hlist, List.cons_append]
      split
      · next h =>
        obtain ⟨rfl, -⟩ := List.cons.inj h
        exact absurd hlist (hzero e ds)
      · rfl
  simp only [hbase, if_true, numberChars_digits hdigits hend, hplain, hlast, if_false, Bool.true_or,
    decide_true, natural?_toDigits, Option.filter_some, hn, Option.map_some, Option.getD_some]

/-- The characters of a number that is written out. -/
theorem toList_toString (n : Nat) : (toString n).toList = Nat.toDigits 10 n :=
  String.toList_ofList

/-- They start with a digit. -/
theorem exists_digit_cons (n : Nat) :
    ∃ d ds, (toString n).toList = d :: ds ∧ d.isDigit = true := by
  rw [toList_toString]
  rcases hlist : Nat.toDigits 10 n with _ | ⟨d, ds⟩
  · exact absurd hlist Nat.toDigits_ne_nil
  · exact ⟨d, ds, rfl, Nat.isDigit_of_mem_toDigits (by decide) (by decide)
      (hlist ▸ List.mem_cons_self)⟩

section

variable {d : Char}

theorem ne_of_isDigit (hd : d.isDigit = true) {c : Char} (hc : c.isDigit = false) : d ≠ c := by
  rintro rfl
  exact absurd (hd.symm.trans hc) (by decide)

theorem sign?_digit (hd : d.isDigit = true) (cs : List Char) : sign? (d :: cs) = none := by
  unfold sign?
  split
  case h_26 => rfl
  all_goals
    next heq => exact absurd (List.cons.inj heq).1 (ne_of_isDigit hd rfl)

theorem isSpace_digit (hd : d.isDigit = true) : isSpace d = false := by
  have hne (c : Char) (hc : c.isDigit = false) : d ≠ c := ne_of_isDigit hd hc
  simp [isSpace, hne ' ' rfl, hne '\n' rfl, hne '\t' rfl, hne '\r' rfl, hne '\x0c' rfl]

/-- A digit starts a number. -/
theorem scan_digit (hd : d.isDigit = true) (cs : List Char) :
    scan d cs = ((number (d :: cs)).1, 0, (number (d :: cs)).2) := by
  have hne (c : Char) (hc : c.isDigit = false) : d ≠ c := ne_of_isDigit hd hc
  simp [scan, sign?_digit hd, hne '"' rfl, hne '\'' rfl, hd]

end

/-- No digit closes a tag. -/
theorem closing?_digit {d : Char} (hd : d.isDigit = true) (kind : TagKind) (cs : List Char) :
    closing? kind (d :: cs) = none := by
  have hne (c : Char) (hc : c.isDigit = false) : d ≠ c := ne_of_isDigit hd hc
  unfold closing?
  split
  · next h => exact absurd (List.cons.inj h).1 (hne '-' rfl)
  · next h => exact absurd (List.cons.inj h).1 (hne '+' rfl)
  · cases kind <;>
      simp [TagKind.close, Text.dropLead?, (hne '%' rfl).symm, (hne '\x7d' rfl).symm,
        (hne '#' rfl).symm]

/-- A number is read up to a bracket or a blank. -/
theorem reads_number {n : Nat} (hn : n < wholeLimit) (kind : TagKind) (depth : Int) (L L' : Nat)
    {c : Char} (hend : endsNumber c = true) (rest : List Char) :
    Cursor.Reads ⟨.inside kind depth, L, L', (toString n).toList ++ c :: rest⟩ [⟨.int n, L⟩]
      ⟨.inside kind depth, L, L, c :: rest⟩ := by
  rw [toList_toString]
  have hdigits : ∀ c ∈ Nat.toDigits 10 n, c.isDigit = true := fun c hc =>
    Nat.isDigit_of_mem_toDigits (by decide) (by decide) hc
  have hnumber := number_toDigits hn hend rest
  rcases hlist : Nat.toDigits 10 n with _ | ⟨d, ds⟩
  · exact absurd hlist Nat.toDigits_ne_nil
  rw [hlist] at hdigits hnumber
  have hd : d.isDigit = true := hdigits d List.mem_cons_self
  have hscan : scan d (ds ++ c :: rest) = (.int n, 0, c :: rest) := by
    rw [scan_digit hd, ← List.cons_append, hnumber]
  have hlength : (c :: rest).length < (d :: ds ++ c :: rest).length := by
    simp only [List.length_append, List.length_cons]
    omega
  refine .of_step ?_ hlength
  simp [Cursor.step, Cursor.stepInside, isSpace_digit hd, closing?_digit hd, hscan, Cursor.emit,
    Cursor.moveTo]

end SqlWorkflow.Template.Token
