import SqlWorkflow.Schedule.Cron
import Mathlib.Data.List.Forall2

/-!
# What a cron expression is

A cron expression is a name or five or six fields, a field is a list of items, and an item is made
of values.  Each of the checks reads a text in its own way (by splitting it, by cutting it at a
mark, by reading digits), and together they accept exactly the texts that a grammar describes
(`isValid_iff_expression`).

Numbers are read in two ways.  Those of ranges and steps are digits, but the day and the place of an
item such as `1#2` may also have a plus sign before their digits, and that is the only use of signs:
an accepted text without a plus sign is an expression without signs, and the other way round
(`expression_unsigned_iff`).

- **§1** Words.
- **§2** Values.
- **§3** Items.
- **§4** Fields.
- **§5** Expressions.
-/

namespace SqlWorkflow

/-! ## §1 Words -/

namespace Text

variable {p : Char → Bool} {cs gap word rest : List Char} {words : List (List Char)}

/-- The text consists of the words, with gaps of characters that satisfy `p` between them; there may
be such gaps at its ends too. -/
inductive Worded (p : Char → Bool) : List Char → List (List Char) → Prop
  | gap {gap : List Char} (hgap : ∀ c ∈ gap, p c = true) : Worded p gap []
  | word {gap word rest : List Char} {words : List (List Char)} (hgap : ∀ c ∈ gap, p c = true)
      (hne : word ≠ []) (hword : ∀ c ∈ word, p c = false) (hend : ∀ c ∈ rest.head?, p c = true)
      (hrest : Worded p rest words) : Worded p (gap ++ (word ++ rest)) (word :: words)

/-- The words of a text, where a first word may have been begun. -/
def allWords (acc : List Char × List (List Char)) : List (List Char) :=
  if acc.1.isEmpty then acc.2 else acc.1 :: acc.2

/-- A character in front of a text either ends the word that has been begun or goes on with it. -/
def wordStep (p : Char → Bool) (c : Char) (acc : List Char × List (List Char)) :
    List Char × List (List Char) :=
  if p c then ([], allWords acc) else (c :: acc.1, acc.2)

theorem wordsOf_eq (p : Char → Bool) (cs : List Char) :
    wordsOf p cs = allWords (cs.foldr (wordStep p) ([], [])) := rfl

theorem foldr_wordStep_gap (hgap : ∀ c ∈ gap, p c = true) (hne : gap ≠ [])
    (acc : List Char × List (List Char)) : gap.foldr (wordStep p) acc = ([], allWords acc) := by
  induction gap with
  | nil => exact absurd rfl hne
  | cons c gap ih =>
    have hc := hgap c List.mem_cons_self
    rw [List.foldr_cons, wordStep, if_pos hc]
    cases gap with
    | nil => rfl
    | cons d gap =>
      rw [ih (fun e he => hgap e (List.mem_cons_of_mem _ he)) (List.cons_ne_nil d gap)]
      rfl

theorem foldr_wordStep_word (hword : ∀ c ∈ word, p c = false)
    (acc : List Char × List (List Char)) :
    word.foldr (wordStep p) acc = (word ++ acc.1, acc.2) := by
  induction word with
  | nil => rfl
  | cons c word ih =>
    rw [List.foldr_cons, ih fun d hd => hword d (List.mem_cons_of_mem _ hd), wordStep,
      if_neg (by simp [hword c List.mem_cons_self])]
    rfl

/-- A gap in front of a text adds no word. -/
theorem wordsOf_gap_append (hgap : ∀ c ∈ gap, p c = true) :
    wordsOf p (gap ++ cs) = wordsOf p cs := by
  by_cases hne : gap = []
  · rw [hne, List.nil_append]
  · rw [wordsOf_eq, wordsOf_eq, List.foldr_append, foldr_wordStep_gap hgap hne]
    rfl

/-- A word in front of a gap is the first one. -/
theorem wordsOf_word_append (hne : word ≠ []) (hword : ∀ c ∈ word, p c = false)
    (hend : ∀ c ∈ rest.head?, p c = true) : wordsOf p (word ++ rest) = word :: wordsOf p rest := by
  have hbegun : (rest.foldr (wordStep p) ([], [])).1 = [] := by
    cases rest with
    | nil => rfl
    | cons c rest => rw [List.foldr_cons, wordStep, if_pos (hend c rfl)]
  rw [wordsOf_eq, wordsOf_eq, List.foldr_append, foldr_wordStep_word hword, hbegun]
  simp [allWords, hbegun, hne]

/-- Every text consists of words and gaps: a character in front of it lengthens the gap or the word
that is there, or begins a word. -/
theorem exists_worded (p : Char → Bool) (cs : List Char) : ∃ words, Worded p cs words := by
  induction cs with
  | nil => exact ⟨[], .gap (by simp)⟩
  | cons c cs ih =>
    obtain ⟨words, hcs⟩ := ih
    -- What the character does depends on whether the text starts with a gap.
    cases hc : p c with
    | true =>
      cases hcs with
      | gap hgap => exact ⟨[], .gap (by simpa [hc] using hgap)⟩
      | @word gap word rest words hgap hne hword hend hrest =>
        have hgap : ∀ d ∈ c :: gap, p d = true := by simpa [hc] using hgap
        exact ⟨_, .word hgap hne hword hend hrest⟩
    | false =>
      by_cases hend : ∀ d ∈ cs.head?, p d = true
      · have hbegun : Worded p ([] ++ ([c] ++ cs)) ([c] :: words) :=
          .word (by simp) (by simp) (by simpa using hc) hend hcs
        exact ⟨_, hbegun⟩
      · cases hcs with
        | gap hgap =>
          exact absurd (fun d hd => hgap d (List.mem_of_mem_head? hd)) hend
        | @word gap word rest words hgap hne hword hend' hrest =>
          cases gap with
          | nil =>
            have hlonger : Worded p ([] ++ (c :: word ++ rest)) ((c :: word) :: words) :=
              .word (by simp) (by simp) (by simpa [hc] using hword) hend' hrest
            exact ⟨_, hlonger⟩
          | cons d gap => exact absurd (by simpa using hgap d List.mem_cons_self) hend

theorem Worded.wordsOf_eq (h : Worded p cs words) : wordsOf p cs = words := by
  induction h with
  | @gap gap hgap =>
    have hnone : wordsOf p (gap ++ []) = wordsOf p [] := wordsOf_gap_append hgap
    rwa [List.append_nil] at hnone
  | word hgap hne hword hend _ ih =>
    rw [wordsOf_gap_append hgap, wordsOf_word_append hne hword hend, ih]

/-- The words of a text are what it consists of besides gaps. -/
theorem wordsOf_eq_iff : wordsOf p cs = words ↔ Worded p cs words := by
  refine ⟨?_, Worded.wordsOf_eq⟩
  rintro rfl
  obtain ⟨words, h⟩ := exists_worded p cs
  rwa [h.wordsOf_eq]

/-- What is in no gap is in a word. -/
theorem Worded.exists_mem (h : Worded p cs words) {c : Char} (hc : c ∈ cs) (hp : p c = false) :
    ∃ word ∈ words, c ∈ word := by
  induction h with
  | gap hgap => simp [hgap c hc] at hp
  | @word gap word rest words hgap _ _ _ _ ih =>
    rcases List.mem_append.1 hc with hc | hc
    · simp [hgap c hc] at hp
    · rcases List.mem_append.1 hc with hc | hc
      · exact ⟨word, List.mem_cons_self, hc⟩
      · obtain ⟨other, hother, hmem⟩ := ih hc
        exact ⟨other, List.mem_cons_of_mem _ hother, hmem⟩

/-- Words are parts of the text. -/
theorem Worded.mem_of_mem (h : Worded p cs words) {word : List Char} (hword : word ∈ words)
    {c : Char} (hc : c ∈ word) : c ∈ cs := by
  induction h with
  | gap => cases hword
  | word _ _ _ _ _ ih =>
    rcases List.mem_cons.1 hword with rfl | hword
    · simp [hc]
    · simp [ih hword]

end Text

namespace Cron

open Text (splitAt joinAt isBlank)

/-! ## §2 Values -/

/-- The text is a decimal numeral for `n`, with a plus sign at most where there may be one. -/
inductive Numeral (signed : Prop) : List Char → Nat → Prop
  | plain {digits : List Char} (hne : digits ≠ []) (hdigits : ∀ c ∈ digits, c.isDigit = true) :
      Numeral signed digits (Decimal.valueOf digits)
  | plus {digits : List Char} (h : signed) (hne : digits ≠ [])
      (hdigits : ∀ c ∈ digits, c.isDigit = true) :
      Numeral signed ('+' :: digits) (Decimal.valueOf digits)

/-- The text is a name of the unit for `n`, in any case. -/
def Named (unit : Unit) (text : List Char) (n : Nat) : Prop :=
  ∃ i name, unit.names[i]? = some name ∧ text.map Char.toUpper = name.toList ∧
    n = unit.firstNamed + i

/-- The text stands for the value `n`, which is within the bounds of the unit. -/
structure Value (signed : Prop) (unit : Unit) (text : List Char) (n : Nat) : Prop where
  denotes : Numeral signed text n ∨ Named unit text n
  least_le : unit.least ≤ n
  le_greatest : n ≤ unit.greatest

/-- A unit whose values are told by their texts. -/
structure Unit.Sound (unit : Unit) : Prop where
  greatest_lt : unit.greatest < Nat.pow 2 32
  names_nodup : unit.names.Nodup
  names_upper : ∀ name ∈ unit.names, name.toList ≠ [] ∧ ∀ c ∈ name.toList, c.isUpper = true
  hasLast_iff : unit.hasLast = true ↔ unit = .dayOfMonth
  hasPlaces_iff : unit.hasPlaces = true ↔ unit = .dayOfWeek
  isDay_iff : unit.isDay = true ↔ unit = .dayOfMonth ∨ unit = .dayOfWeek

/-- The units of expressions of five and of six fields. -/
def layouts : List (List Unit) :=
  [[.minute, .hour, .dayOfMonth, .month, .dayOfWeek],
    [.second, .minute, .hour, .dayOfMonth, .month, .dayOfWeek]]

theorem sound_of_mem_layouts : ∀ units ∈ layouts, ∀ unit ∈ units, unit.Sound := by
  have hall : ∀ units ∈ layouts, ∀ unit ∈ units,
      (unit.greatest ≤ 59 ∧ unit.names.Nodup ∧
        ∀ name ∈ unit.names, name.toList ≠ [] ∧ name.toList.all Char.isUpper = true) ∧
      (unit.hasLast = true ↔ unit = .dayOfMonth) ∧ (unit.hasPlaces = true ↔ unit = .dayOfWeek) ∧
      (unit.isDay = true ↔ unit = .dayOfMonth ∨ unit = .dayOfWeek) := by
    decide +kernel
  intro units hunits unit hunit
  obtain ⟨⟨hgreatest, hnodup, hupper⟩, hlast, hplaces, hday⟩ := hall units hunits unit hunit
  exact ⟨Nat.lt_of_le_of_lt hgreatest (by decide), hnodup,
    fun name hname => (hupper name hname).imp_right List.all_eq_true.1, hlast, hplaces, hday⟩

section Values

variable {signed : Prop} {unit : Unit} {text : List Char} {n limit : Nat}

theorem digits?_eq_some_iff :
    Decimal.digits? limit text = some n ↔ Numeral False text n ∧ n < limit := by
  unfold Decimal.digits?
  constructor
  · intro h
    split at h
    · cases h
    · split at h
      · cases h
        next hdigits hlimit =>
        simp only [Bool.or_eq_true, List.isEmpty_iff, Bool.not_eq_true', not_or,
          Bool.not_eq_false, List.all_eq_true] at hdigits
        exact ⟨.plain hdigits.1 hdigits.2, hlimit⟩
      · cases h
  · rintro ⟨hnumeral, hlimit⟩
    cases hnumeral with
    | plain hne hdigits => rw [if_neg (by simpa [hne] using hdigits), if_pos hlimit]
    | plus h => exact h.elim

theorem natural?_eq_some_iff :
    Decimal.natural? limit text = some n ↔ Numeral True text n ∧ n < limit := by
  unfold Decimal.natural?
  -- A sign in front is dropped before the digits are read.
  split
  · next digits =>
    rw [digits?_eq_some_iff]
    refine and_congr_left fun _ => ⟨fun h => ?_, fun h => ?_⟩
    · cases h with
      | plain hne hdigits => exact .plus trivial hne hdigits
      | plus h => exact h.elim
    · cases h with
      | plain hne hdigits => exact absurd (hdigits '+' List.mem_cons_self) (by decide)
      | plus _ hne hdigits => exact .plain hne hdigits
  · next hplus =>
    rw [digits?_eq_some_iff]
    refine and_congr_left fun _ => ⟨fun h => ?_, fun h => ?_⟩
    · cases h with
      | plain hne hdigits => exact .plain hne hdigits
      | plus h => exact h.elim
    · cases h with
      | plain hne hdigits => exact .plain hne hdigits
      | plus => exact absurd rfl (hplus _)

theorem named?_eq_some_iff (hunit : unit.Sound) :
    unit.named? text = some n ↔ Named unit text n := by
  simp only [Unit.named?, Option.map_eq_some_iff, List.findIdx?_eq_some_iff_getElem]
  constructor
  · rintro ⟨i, ⟨hi, hname, -⟩, rfl⟩
    refine ⟨i, unit.names[i], List.getElem?_eq_getElem hi, ?_, rfl⟩
    rw [beq_iff_eq.1 hname, String.toList_ofList]
  · rintro ⟨i, name, hname, htext, rfl⟩
    obtain ⟨hi, rfl⟩ := List.getElem?_eq_some_iff.1 hname
    have hwritten : String.ofList (text.map Char.toUpper) = unit.names[i] := by
      rw [htext, String.ofList_toList]
    refine ⟨i, ⟨hi, by rw [hwritten, beq_self_eq_true], fun j hji => ?_⟩, rfl⟩
    -- No other name is written so.
    rw [hwritten, beq_iff_eq]
    exact List.pairwise_iff_getElem.1 hunit.names_nodup j i (Nat.lt_trans hji hi) hi hji

theorem isUpper_iff {c : Char} : c.isUpper = true ↔ 65 ≤ c.toNat ∧ c.toNat ≤ 90 := by
  change decide (c.val ≥ 'A'.val ∧ c.val ≤ 'Z'.val) = true ↔ _
  rw [decide_eq_true_eq]
  rfl

theorem isLower_iff {c : Char} : c.isLower = true ↔ 97 ≤ c.toNat ∧ c.toNat ≤ 122 := by
  change (decide (c.val ≥ 'a'.val) && decide (c.val ≤ 'z'.val)) = true ↔ _
  rw [Bool.and_eq_true, decide_eq_true_eq, decide_eq_true_eq]
  rfl

theorem isAlpha_iff {c : Char} : c.isAlpha = true ↔ c.isUpper = true ∨ c.isLower = true := by
  change (c.isUpper || c.isLower) = true ↔ _
  rw [Bool.or_eq_true]

theorem isAlpha_eq_false_of_isDigit {c : Char} (h : c.isDigit = true) : c.isAlpha = false := by
  have hbounds : 48 ≤ c.toNat ∧ c.toNat ≤ 57 := by
    rw [Char.isDigit, Bool.and_eq_true, decide_eq_true_eq, decide_eq_true_eq] at h
    exact h
  rw [← Bool.not_eq_true, isAlpha_iff, isUpper_iff, isLower_iff]
  omega

theorem isAlpha_of_isUpper_toUpper {c : Char} (h : c.toUpper.isUpper = true) :
    c.isAlpha = true := by
  rw [isAlpha_iff]
  unfold Char.toUpper at h
  split at h
  · next hlower => exact .inr (isLower_iff.2 hlower)
  · exact .inl h

/-- A name is written in letters. -/
theorem Named.isAlpha (hunit : unit.Sound) (h : Named unit text n) :
    text ≠ [] ∧ ∀ c ∈ text, c.isAlpha = true := by
  obtain ⟨i, name, hname, htext, -⟩ := h
  obtain ⟨hne, hupper⟩ := hunit.names_upper name (List.mem_of_getElem? hname)
  rw [← htext] at hne hupper
  refine ⟨by simpa using hne, fun c hc => ?_⟩
  exact isAlpha_of_isUpper_toUpper (hupper _ (List.mem_map_of_mem hc))

/-- Names are no numerals. -/
theorem Numeral.not_named {m : Nat} (hunit : unit.Sound) (h : Numeral signed text n) :
    ¬ Named unit text m := by
  intro hnamed
  obtain ⟨hne, halpha⟩ := hnamed.isAlpha hunit
  cases h with
  | plain _ hdigits =>
    -- Its first character would be a digit and a letter.
    obtain ⟨c, rest, rfl⟩ := List.exists_cons_of_ne_nil hne
    have hdigit := isAlpha_eq_false_of_isDigit (hdigits c List.mem_cons_self)
    rw [halpha c List.mem_cons_self] at hdigit
    cases hdigit
  | plus => exact absurd (halpha '+' List.mem_cons_self) (by decide)

/-- The value of a text is its number, or else the value that it names. -/
theorem value?_eq_some_iff (hunit : unit.Sound) :
    unit.value? text = some n ↔ Value True unit text n := by
  have hbound : ∀ {m}, m ≤ unit.greatest → m < Nat.pow 2 32 :=
    fun h => Nat.lt_of_le_of_lt h hunit.greatest_lt
  rw [Unit.value?, Option.filter_eq_some_iff, Option.or_eq_some_iff, natural?_eq_some_iff,
    named?_eq_some_iff hunit]
  simp only [Bool.and_eq_true, decide_eq_true_eq]
  constructor
  · rintro ⟨⟨hnumeral, -⟩ | ⟨-, hnamed⟩, hleast, hgreatest⟩
    · exact ⟨.inl hnumeral, hleast, hgreatest⟩
    · exact ⟨.inr hnamed, hleast, hgreatest⟩
  · rintro ⟨hnumeral | hnamed, hleast, hgreatest⟩
    · exact ⟨.inl ⟨hnumeral, hbound hgreatest⟩, hleast, hgreatest⟩
    · -- A name is looked for only if the text is no number, and no name is one.
      refine ⟨.inr ⟨?_, hnamed⟩, hleast, hgreatest⟩
      rw [Option.eq_none_iff_forall_ne_some]
      intro m hm
      exact (natural?_eq_some_iff.1 hm).1.not_named hunit hnamed

/-- Numerals are written in digits, but for the sign. -/
theorem Numeral.not_mem (h : Numeral signed text n) {c : Char} (hc : c.isDigit = false)
    (hplus : signed → c ≠ '+') : c ∉ text := by
  have hnone : ∀ {digits : List Char}, (∀ d ∈ digits, d.isDigit = true) → c ∉ digits := by
    intro digits hdigits hmem
    rw [hdigits c hmem] at hc
    cases hc
  cases h with
  | plain _ hdigits => exact hnone hdigits
  | plus hsigned _ hdigits => simp [hplus hsigned, hnone hdigits]

/-- Values are written in letters and digits, but for the sign. -/
theorem Value.not_mem (hunit : unit.Sound) (h : Value signed unit text n) {c : Char}
    (hc : c.isAlphanum = false) (hplus : signed → c ≠ '+') : c ∉ text := by
  rw [Char.isAlphanum, Bool.or_eq_false_iff] at hc
  rcases h.denotes with hnumeral | hnamed
  · exact hnumeral.not_mem hc.2 hplus
  · intro hmem
    rw [(hnamed.isAlpha hunit).2 c hmem] at hc
    cases hc.1

theorem Numeral.mono (h : Numeral False text n) : Numeral signed text n := by
  cases h with
  | plain hne hdigits => exact .plain hne hdigits
  | plus h => exact h.elim

/-- Without a plus sign in it, a numeral has none in front of it. -/
theorem Numeral.unsigned (h : Numeral signed text n) (hplus : '+' ∉ text) :
    Numeral False text n := by
  cases h with
  | plain hne hdigits => exact .plain hne hdigits
  | plus => exact absurd List.mem_cons_self hplus

theorem Value.mono (h : Value False unit text n) : Value signed unit text n :=
  ⟨h.denotes.imp_left Numeral.mono, h.least_le, h.le_greatest⟩

theorem Value.unsigned (h : Value signed unit text n) (hplus : '+' ∉ text) :
    Value False unit text n :=
  ⟨h.denotes.imp_left fun hn => hn.unsigned hplus, h.least_le, h.le_greatest⟩

/-- Letters and digits that are a value are one without a sign. -/
theorem value?_eq_some_iff_unsigned (hunit : unit.Sound) :
    text.all Char.isAlphanum = true ∧ unit.value? text = some n ↔ Value False unit text n := by
  rw [List.all_eq_true, value?_eq_some_iff hunit]
  constructor
  · rintro ⟨hchars, hn⟩
    exact hn.unsigned fun h => absurd (hchars '+' h) (by decide)
  · intro hn
    refine ⟨fun c hc => ?_, hn.mono⟩
    cases hchar : c.isAlphanum with
    | true => rfl
    | false => exact absurd hc (hn.not_mem hunit hchar fun hsigned => hsigned.elim)

end Values

/-! ## §3 Items -/

/-- The text stands for some values of the unit. -/
inductive Range (unit : Unit) : List Char → Prop
  /-- All of them. -/
  | all : Range unit ['*']
  | value {text : List Char} {n : Nat} (h : Value False unit text n) : Range unit text
  /-- Those from one value to another that is not less. -/
  | span {first last : List Char} {a b : Nat} (hfirst : Value False unit first a)
      (hlast : Value False unit last b) (hle : a ≤ b) : Range unit (first ++ '-' :: last)

/-- The text is an item of a list for the unit.  In an item with a place, and only there, numbers
may have a sign if `signed` holds. -/
inductive Item (signed : Prop) (unit : Unit) : List Char → Prop
  /-- The last day of the month. -/
  | last (h : unit = .dayOfMonth) : Item signed unit ['L']
  /-- One of up to five days of the month that fall on a day of the week. -/
  | placed {day place : List Char} {n k : Nat} (h : unit = .dayOfWeek)
      (hday : Value signed unit day n) (hplace : Numeral signed place k) (hk : 1 ≤ k ∧ k ≤ 5) :
      Item signed unit (day ++ '#' :: place)
  | range {range : List Char} (h : Range unit range) : Item signed unit range
  /-- Every so many of the values. -/
  | stepped {range step : List Char} {n : Nat} (h : Range unit range)
      (hstep : Numeral False step n) (hn : 0 < n ∧ n < Nat.pow 2 32) :
      Item signed unit (range ++ '/' :: step)

section Items

variable {signed : Prop} {unit : Unit} {text : List Char}

theorem isRange_iff (hunit : unit.Sound) :
    (text == ['*'] || isRange unit text) = true ↔ Range unit text := by
  rw [Bool.or_eq_true, beq_iff_eq]
  constructor
  · rintro (rfl | h)
    · exact .all
    · unfold isRange at h
      split at h
      · next value hsplit =>
        obtain ⟨-, -, rfl⟩ := Text.splitAt_eq_iff.1 hsplit
        rw [Bool.and_eq_true, Option.isSome_iff_exists] at h
        obtain ⟨hchars, n, hn⟩ := h
        exact .value ((value?_eq_some_iff_unsigned hunit).1 ⟨hchars, hn⟩)
      · next first last hsplit =>
        obtain ⟨-, -, rfl⟩ := Text.splitAt_eq_iff.1 hsplit
        rw [Bool.and_eq_true, Bool.and_eq_true] at h
        obtain ⟨⟨hfirst, hlast⟩, h⟩ := h
        split at h
        · next a b ha hb =>
          exact .span ((value?_eq_some_iff_unsigned hunit).1 ⟨hfirst, ha⟩)
            ((value?_eq_some_iff_unsigned hunit).1 ⟨hlast, hb⟩) (of_decide_eq_true h)
        · cases h
      · cases h
  · intro h
    cases h with
    | all => exact .inl rfl
    | value h =>
      refine .inr ?_
      -- A value holds no dash, so that a text is cut only between two values.
      rw [isRange, Text.splitAt_of_not_mem (h.not_mem hunit (by decide) (by simp))]
      obtain ⟨hchars, hn⟩ := (value?_eq_some_iff_unsigned hunit).2 h
      simp [hchars, hn]
    | span hfirst hlast hle =>
      refine .inr ?_
      rw [isRange, Text.splitAt_append_cons,
        Text.splitAt_of_not_mem (hfirst.not_mem hunit (by decide) (by simp)),
        Text.splitAt_of_not_mem (hlast.not_mem hunit (by decide) (by simp))]
      obtain ⟨hchars, hn⟩ := (value?_eq_some_iff_unsigned hunit).2 hfirst
      obtain ⟨hchars', hn'⟩ := (value?_eq_some_iff_unsigned hunit).2 hlast
      simp [hchars, hn, hchars', hn', hle]

/-- Ranges are written in letters, digits, stars and hyphens. -/
theorem Range.not_mem (hunit : unit.Sound) (h : Range unit text) {c : Char}
    (hc : c.isAlphanum = false) (hstar : c ≠ '*') (hhyphen : c ≠ '-') : c ∉ text := by
  have hvalue : ∀ {value n}, Value False unit value n → c ∉ value :=
    fun h => h.not_mem hunit hc fun hsigned => hsigned.elim
  cases h with
  | all => simpa using hstar
  | value h => exact hvalue h
  | span hfirst hlast _ => simp [hvalue hfirst, hvalue hlast, hhyphen]

theorem isStep_iff : isStep text = true ↔ ∃ n, Numeral False text n ∧ 0 < n ∧ n < Nat.pow 2 32 := by
  simp only [isStep, Option.any_eq_true, digits?_eq_some_iff, decide_eq_true_eq]
  exact exists_congr fun n => by rw [and_assoc, and_comm (a := n < Nat.pow 2 32)]

theorem isStepped_iff (hunit : unit.Sound) :
    isStepped unit text = true ↔
      Range unit text ∨ ∃ range step, text = range ++ '/' :: step ∧ Range unit range ∧
        isStep step = true := by
  -- Neither part holds a slash, so the text is cut where it was put together.
  have hslash : ∀ {range}, Range unit range → '/' ∉ range :=
    fun h => h.not_mem hunit (by decide) (by decide) (by decide)
  have hstep : ∀ {step}, isStep step = true → '/' ∉ step := by
    intro step h
    obtain ⟨n, hn, -⟩ := isStep_iff.1 h
    exact hn.not_mem (by decide) (by simp)
  constructor
  · intro h
    unfold isStepped at h
    split at h
    · next range hsplit =>
      obtain ⟨-, -, rfl⟩ := Text.splitAt_eq_iff.1 hsplit
      exact .inl ((isRange_iff hunit).1 h)
    · next range step hsplit =>
      obtain ⟨-, -, rfl⟩ := Text.splitAt_eq_iff.1 hsplit
      rw [Bool.and_eq_true, isRange_iff hunit] at h
      exact .inr ⟨range, step, rfl, h⟩
    · cases h
  · rintro (hrange | ⟨range, step, rfl, hrange, h⟩)
    · rw [isStepped, Text.splitAt_of_not_mem (hslash hrange)]
      exact (isRange_iff hunit).2 hrange
    · rw [isStepped, Text.splitAt_append_cons, Text.splitAt_of_not_mem (hslash hrange),
        Text.splitAt_of_not_mem (hstep h)]
      exact Bool.and_eq_true_iff.2 ⟨(isRange_iff hunit).2 hrange, h⟩

theorem isPlaced_iff (hunit : unit.Sound) :
    isPlaced unit text = true ↔ ∃ day place n k, text = day ++ '#' :: place ∧
      Value True unit day n ∧ Numeral True place k ∧ 1 ≤ k ∧ k ≤ 5 := by
  constructor
  · intro h
    unfold isPlaced at h
    split at h
    · next day place hcut =>
      simp only [Bool.and_eq_true, Option.isSome_iff_exists, value?_eq_some_iff hunit,
        Option.any_eq_true, natural?_eq_some_iff, decide_eq_true_eq] at h
      obtain ⟨⟨n, hday⟩, k, ⟨hplace, -⟩, hk⟩ := h
      exact ⟨day, place, n, k, (Text.cutAt?_singleton_eq_some_iff.1 hcut).1, hday, hplace, hk⟩
    · cases h
  · rintro ⟨day, place, n, k, rfl, hday, hplace, hk⟩
    -- A day holds no `#`, so the first one is the one before the place.
    have hcut : Text.cutAt? ['#'] (day ++ '#' :: place) = some (day, place) :=
      Text.cutAt?_singleton_eq_some_iff.2 ⟨rfl, hday.not_mem hunit (by decide) (by simp)⟩
    have hbound : k < Nat.pow 2 32 := Nat.lt_of_le_of_lt hk.2 (by decide)
    simp only [isPlaced, hcut, Bool.and_eq_true, Option.isSome_iff_exists, value?_eq_some_iff hunit,
      Option.any_eq_true, natural?_eq_some_iff, decide_eq_true_eq]
    exact ⟨⟨n, hday⟩, k, ⟨hplace, hbound⟩, hk⟩

theorem mark_not_mem_of_isStepped (hunit : unit.Sound) (h : isStepped unit text = true) :
    '#' ∉ text := by
  have hrange : ∀ {range}, Range unit range → '#' ∉ range :=
    fun h => h.not_mem hunit (by decide) (by decide) (by decide)
  obtain h | ⟨range, step, rfl, h, hstep⟩ := (isStepped_iff hunit).1 h
  · exact hrange h
  · obtain ⟨n, hn, -⟩ := isStep_iff.1 hstep
    have hstep : '#' ∉ step := hn.not_mem (by decide) (by simp)
    simp [hrange h, hstep]

/-- What items are, in the terms of the checks. -/
theorem item_iff (hunit : unit.Sound) : Item True unit text ↔
    (unit = .dayOfMonth ∧ text = ['L']) ∨ (unit = .dayOfWeek ∧ isPlaced unit text = true) ∨
      isStepped unit text = true := by
  rw [isPlaced_iff hunit, isStepped_iff hunit]
  constructor
  · intro h
    cases h with
    | last h => exact .inl ⟨h, rfl⟩
    | placed h hday hplace hk => exact .inr (.inl ⟨h, _, _, _, _, rfl, hday, hplace, hk⟩)
    | range h => exact .inr (.inr (.inl h))
    | stepped h hstep hn => exact .inr (.inr (.inr ⟨_, _, rfl, h, isStep_iff.2 ⟨_, hstep, hn⟩⟩))
  · rintro (⟨h, rfl⟩ | ⟨h, day, place, n, k, rfl, hday, hplace, hk⟩ | h |
      ⟨range, step, rfl, h, hstep⟩)
    · exact .last h
    · exact .placed h hday hplace hk
    · exact .range h
    · obtain ⟨n, hstep, hn⟩ := isStep_iff.1 hstep
      exact .stepped h hstep hn

/-- A text is an item if and only if it is accepted as one.  It does not matter that the mark of a
place is looked for first, since items with a place hold it and others do not. -/
theorem isItem_iff (hunit : unit.Sound) : isItem unit text = true ↔ Item True unit text := by
  rw [item_iff hunit, isItem]
  have hmark : isPlaced unit text = true → '#' ∈ text := by
    intro h
    obtain ⟨day, place, n, k, rfl, -⟩ := (isPlaced_iff hunit).1 h
    simp
  have hnone : isStepped unit text = true → '#' ∉ text := mark_not_mem_of_isStepped hunit
  simp only [Bool.and_eq_true, hunit.hasLast_iff, hunit.hasPlaces_iff, beq_iff_eq,
    List.contains_iff_mem]
  split
  · next hlast => simp [hlast]
  · next hlast =>
    split
    · next hplaces =>
      simp only [hplaces.1, true_and]
      grind
    · next hplaces => grind

/-- Items are written in letters, digits and their marks. -/
theorem Item.not_mem (hunit : unit.Sound) (h : Item signed unit text) {c : Char}
    (hc : c.isAlphanum = false) (hmarks : c ∉ ['*', '-', '/', '#']) (hplus : signed → c ≠ '+') :
    c ∉ text := by
  have hdigit : c.isDigit = false := (Bool.or_eq_false_iff.1 hc).2
  simp only [List.mem_cons, List.not_mem_nil, or_false, not_or] at hmarks
  obtain ⟨hstar, hhyphen, hslash, hmark⟩ := hmarks
  cases h with
  | last =>
    rintro hmem
    rw [List.mem_singleton.1 hmem] at hc
    cases hc
  | placed _ hday hplace _ =>
    simp [hday.not_mem hunit hc hplus, hplace.not_mem hdigit hplus, hmark]
  | range h => exact h.not_mem hunit hc hstar hhyphen
  | stepped h hstep _ =>
    simp [h.not_mem hunit hc hstar hhyphen, hstep.not_mem hdigit fun h => h.elim, hslash]

theorem Item.mono (h : Item False unit text) : Item signed unit text := by
  cases h with
  | last h => exact .last h
  | placed h hday hplace hk => exact .placed h hday.mono hplace.mono hk
  | range h => exact .range h
  | stepped h hstep hn => exact .stepped h hstep hn

theorem Item.unsigned (h : Item signed unit text) (hplus : '+' ∉ text) : Item False unit text := by
  cases h with
  | last h => exact .last h
  | placed h hday hplace hk =>
    simp only [List.mem_append, List.mem_cons, not_or] at hplus
    exact .placed h (hday.unsigned hplus.1) (hplace.unsigned hplus.2.2) hk
  | range h => exact .range h
  | stepped h hstep hn => exact .stepped h hstep hn

end Items

/-! ## §4 Fields -/

/-- The text is a field for the unit. -/
inductive Field (signed : Prop) (unit : Unit) : List Char → Prop
  /-- Any day. -/
  | undecided (h : unit = .dayOfMonth ∨ unit = .dayOfWeek) : Field signed unit ['?']
  | items {items : List (List Char)} (hne : items ≠ [])
      (hitems : ∀ item ∈ items, Item signed unit item) : Field signed unit (joinAt ',' items)

section Fields

variable {signed : Prop} {unit : Unit} {text : List Char}

theorem isField_iff (hunit : unit.Sound) : isField unit text = true ↔ Field True unit text := by
  have hcomma : ∀ item, Item True unit item → ',' ∉ item :=
    fun _ h => h.not_mem hunit (by decide) (by decide) (by simp)
  have hitems : (splitAt ',' text).all (isItem unit) = true ↔
      ∃ items, items ≠ [] ∧ (∀ item ∈ items, Item True unit item) ∧ text = joinAt ',' items := by
    rw [List.all_eq_true, ← Text.forall_mem_splitAt_iff hcomma]
    exact forall₂_congr fun _ _ => isItem_iff hunit
  rw [isField]
  split
  · next hopen =>
    rw [beq_iff_eq.1 hopen, hunit.isDay_iff]
    refine ⟨.undecided, fun h => ?_⟩
    generalize hmark : ['?'] = text at h
    cases h with
    | undecided h => exact h
    | items hne hitems =>
      -- No item holds the mark of an open field.
      obtain heq | ⟨item, hitem, hmem⟩ := Text.mem_of_mem_joinAt (hmark ▸ List.mem_singleton_self _)
      · exact absurd heq (by decide)
      · exact absurd hmem ((hitems item hitem).not_mem hunit (by decide) (by decide) (by simp))
  · next hopen =>
    rw [hitems]
    constructor
    · rintro ⟨items, hne, h, rfl⟩
      exact .items hne h
    · intro h
      cases h with
      | undecided => exact absurd rfl hopen
      | items hne h => exact ⟨_, hne, h, rfl⟩

/-- Fields are written in letters, digits and their marks. -/
theorem Field.not_mem (hunit : unit.Sound) (h : Field signed unit text) {c : Char}
    (hc : c.isAlphanum = false) (hmarks : c ∉ ['*', '-', '/', '#', ',', '?'])
    (hplus : signed → c ≠ '+') : c ∉ text := by
  simp only [List.mem_cons, List.not_mem_nil, or_false, not_or] at hmarks
  obtain ⟨hstar, hhyphen, hslash, hmark, hcomma, hopen⟩ := hmarks
  cases h with
  | undecided => simpa using hopen
  | items _ hitems =>
    intro hmem
    obtain heq | ⟨item, hitem, hmem⟩ := Text.mem_of_mem_joinAt hmem
    · exact hcomma heq
    · exact (hitems item hitem).not_mem hunit hc (by simp [hstar, hhyphen, hslash, hmark])
        hplus hmem

theorem Field.mono (h : Field False unit text) : Field signed unit text := by
  cases h with
  | undecided h => exact .undecided h
  | items hne hitems => exact .items hne fun item hitem => (hitems item hitem).mono

theorem Field.unsigned (h : Field signed unit text) (hplus : '+' ∉ text) :
    Field False unit text := by
  cases h with
  | undecided h => exact .undecided h
  | items hne hitems =>
    exact .items hne fun item hitem => (hitems item hitem).unsigned fun hmem =>
      hplus (Text.mem_joinAt hitem hmem)

end Fields

/-! ## §5 Expressions -/

/-- The text, without blanks around it, is a cron expression.  Numbers of items with a place may
have a sign if `signed` holds. -/
inductive Expression (signed : Prop) : List Char → Prop
  /-- One of the names of usual times, in any case. -/
  | named {text : List Char} (h : String.ofList (text.map Char.toLower) ∈ names) :
      Expression signed text
  /-- Fields with blanks between them, one for each unit. -/
  | fields {text : List Char} {units : List Unit} {fields : List (List Char)}
      (hunits : units ∈ layouts) (hwords : Text.Worded isBlank text fields)
      (hfields : List.Forall₂ (Field signed) units fields) : Expression signed text

section Expressions

variable {signed : Prop} {text : List Char}

theorem layout?_eq_some_iff {count : Nat} {units : List Unit} :
    layout? count = some units ↔ units ∈ layouts ∧ units.length = count := by
  constructor
  · intro h
    unfold layout? at h
    split at h
    · cases h
      exact ⟨by decide, rfl⟩
    · cases h
      exact ⟨by decide, rfl⟩
    · cases h
  · rintro ⟨hunits, rfl⟩
    simp only [layouts, List.mem_cons, List.not_mem_nil, or_false] at hunits
    rcases hunits with rfl | rfl <;> rfl

/-- Every field is one for its unit. -/
theorem all_isField_iff {units : List Unit} {fields : List (List Char)} (hunits : units ∈ layouts)
    (hlength : units.length = fields.length) :
    ((units.zip fields).all fun (unit, field) => isField unit field) = true ↔
      List.Forall₂ (Field True) units fields := by
  rw [List.all_eq_true, List.forall₂_iff_zip, Prod.forall]
  have hfield : ∀ {unit field}, (unit, field) ∈ units.zip fields →
      (isField unit field = true ↔ Field True unit field) := fun h =>
    isField_iff (sound_of_mem_layouts units hunits _ (List.of_mem_zip h).1)
  exact ⟨fun h => ⟨hlength, fun hmem => (hfield hmem).1 (h _ _ hmem)⟩,
    fun h unit field hmem => (hfield hmem).2 (h.2 hmem)⟩

/-- What stands in no field and is not blank does not stand in the text. -/
theorem not_mem_of_fields {units : List Unit} {fields : List (List Char)}
    (hunits : units ∈ layouts) (hwords : Text.Worded isBlank text fields)
    (hfields : List.Forall₂ (Field signed) units fields) {c : Char} (hblank : isBlank c = false)
    (hc : c.isAlphanum = false) (hmarks : c ∉ ['*', '-', '/', '#', ',', '?'])
    (hplus : signed → c ≠ '+') : c ∉ text := by
  intro hmem
  obtain ⟨field, hfield, hmem⟩ := hwords.exists_mem hmem hblank
  obtain ⟨i, hi, rfl⟩ := List.getElem_of_mem hfield
  have hi' : i < units.length := hfields.length_eq ▸ hi
  exact (hfields.get hi' hi).not_mem (sound_of_mem_layouts units hunits _ (List.getElem_mem hi')) hc
    hmarks hplus hmem

theorem eq_of_toLower_eq {c d : Char} (h : c.toLower = d) (hd : d.isLower = false) : c = d := by
  unfold Char.toLower at h
  split at h
  · next hupper =>
    have hbounds : 65 ≤ c.toNat ∧ c.toNat ≤ 90 := hupper
    have hsum : d.toNat = (c.toNat + 32) % 4294967296 := by
      rw [← h]
      exact UInt32.toNat_add _ _
    have hlower : d.isLower = true := isLower_iff.2 (by omega)
    rw [hlower] at hd
    cases hd
  · exact h

/-- The names of usual times start with a mark of their own. -/
theorem head?_of_named (h : String.ofList (text.map Char.toLower) ∈ names) :
    text.head? = some '@' := by
  have hnames : ∀ name ∈ names, name.toList.head? = some '@' := by decide
  have hhead := hnames _ h
  rw [String.toList_ofList, List.head?_map, Option.map_eq_some_iff] at hhead
  obtain ⟨c, hc, hlower⟩ := hhead
  rw [hc, eq_of_toLower_eq hlower (by decide)]

/-- A text is accepted if and only if, without the blanks around it, it is an expression in which
numbers may have a sign where a place is given. -/
theorem isValid_iff_expression (text : String) :
    isValid text = true ↔ Expression True (Text.trimBoth isBlank text.toList) := by
  rw [isValid]
  generalize Text.trimBoth isBlank text.toList = cs
  dsimp only
  split
  · next hat =>
    -- No list of fields starts as the names do, since no field holds an `@`.
    rw [beq_iff_eq] at hat
    rw [List.contains_iff_mem]
    refine ⟨.named, fun h => ?_⟩
    cases h with
    | named h => exact h
    | fields hunits hwords hfields =>
      exact absurd (List.mem_of_mem_head? hat)
        (not_mem_of_fields hunits hwords hfields (by decide) (by decide) (by decide) (by decide))
  · next hat =>
    rw [beq_iff_eq] at hat
    constructor
    · intro h
      split at h
      · next units hlayout =>
        obtain ⟨hunits, hlength⟩ := layout?_eq_some_iff.1 hlayout
        exact .fields hunits (Text.wordsOf_eq_iff.1 rfl) ((all_isField_iff hunits hlength).1 h)
      · cases h
    · intro h
      cases h with
      | named h => exact absurd (head?_of_named h) hat
      | fields hunits hwords hfields =>
        rw [hwords.wordsOf_eq, layout?_eq_some_iff.2 ⟨hunits, hfields.length_eq⟩]
        exact (all_isField_iff hunits hfields.length_eq).2 hfields

theorem Expression.mono (h : Expression False text) : Expression signed text := by
  cases h with
  | named h => exact .named h
  | fields hunits hwords hfields => exact .fields hunits hwords (hfields.imp fun _ _ => Field.mono)

/-- An expression without signs holds none. -/
theorem Expression.plus_not_mem (h : Expression False text) : '+' ∉ text := by
  cases h with
  | named h =>
    have hnames : ∀ name ∈ names, '+' ∉ name.toList := by decide
    intro hmem
    refine hnames _ h ?_
    rw [String.toList_ofList]
    exact List.mem_map_of_mem hmem
  | fields hunits hwords hfields =>
    exact not_mem_of_fields hunits hwords hfields (by decide) (by decide) (by decide) (by simp)

/-- An expression that holds no sign is one without signs. -/
theorem Expression.unsigned (h : Expression signed text) (hplus : '+' ∉ text) :
    Expression False text := by
  cases h with
  | named h => exact .named h
  | fields hunits hwords hfields =>
    refine .fields hunits hwords ?_
    rw [List.forall₂_iff_zip] at hfields ⊢
    refine ⟨hfields.1, fun hmem => (hfields.2 hmem).unsigned fun h => hplus ?_⟩
    exact hwords.mem_of_mem (List.of_mem_zip hmem).2 h

/-- The expressions without signs are the accepted texts that hold no sign. -/
theorem expression_unsigned_iff (text : String) :
    Expression False (Text.trimBoth isBlank text.toList) ↔
      isValid text = true ∧ '+' ∉ text.toList := by
  have hplus : '+' ∈ text.toList ↔ '+' ∈ Text.trimBoth isBlank text.toList := by
    have hkept := congrArg ('+' ∈ ·) (Text.filter_trimBoth isBlank text.toList)
    simpa [show isBlank '+' = false by decide] using hkept.symm
  rw [hplus, isValid_iff_expression]
  exact ⟨fun h => ⟨h.mono, h.plus_not_mem⟩, fun h => h.1.unsigned h.2⟩

/-- A sign before a place. -/
example : isValid "0 0 ? * 1#+2" = true := by decide +kernel

end Expressions

end Cron

end SqlWorkflow
