/-!
# Blank characters and trimming

A blank is a character with the Unicode property `White_Space`.  Trimming removes the longest
run of such characters from one end of a text, or from both.

Main statements: what trimming leaves starts (`trimStart_head`) with no removed character,
trimming twice is trimming once (`trimStart_trimStart`), and what stands before a text is trimmed
away if and only if it has no other characters (`trimBoth_append_eq_iff`).
-/

namespace SqlWorkflow.Text

/-- Is the character one of the 25 with the Unicode property `White_Space`? -/
def isBlank (c : Char) : Bool :=
  let n := c.toNat
  (9 ≤ n && n ≤ 13) || n == 0x20 || n == 0x85 || n == 0xA0 || n == 0x1680 ||
    (0x2000 ≤ n && n ≤ 0x200A) || n == 0x2028 || n == 0x2029 || n == 0x202F || n == 0x205F ||
    n == 0x3000

/-- The characters from the first one that `p` keeps. -/
def trimStart (p : Char → Bool) (cs : List Char) : List Char :=
  cs.dropWhile p

/-- The characters up to the last one that `p` keeps. -/
def trimEnd (p : Char → Bool) (cs : List Char) : List Char :=
  (cs.reverse.dropWhile p).reverse

/-- The characters between the first and the last one that `p` keeps. -/
def trimBoth (p : Char → Bool) (cs : List Char) : List Char :=
  trimEnd p (trimStart p cs)

/-- The text without its leading and trailing blanks. -/
def trim (s : String) : String :=
  String.ofList (trimBoth isBlank s.toList)

/-- The text without its trailing blanks. -/
def trimRight (s : String) : String :=
  String.ofList (trimEnd isBlank s.toList)

/-- Does the text hold blanks only? -/
def isAllBlank (s : String) : Bool :=
  s.toList.all isBlank

/-- What trimming leaves does not start with a removed character. -/
theorem trimStart_head (p : Char → Bool) (cs : List Char) (c : Char)
    (h : (trimStart p cs).head? = some c) : p c = false := by
  induction cs with
  | nil => simp [trimStart] at h
  | cons d ds ih =>
    by_cases hd : p d = true
    · exact ih (by simpa [trimStart, List.dropWhile_cons, hd] using h)
    · simp [trimStart, hd] at h
      simpa [h] using hd

/-- Trimming a second time finds nothing to remove. -/
theorem trimStart_trimStart (p : Char → Bool) (cs : List Char) :
    trimStart p (trimStart p cs) = trimStart p cs := by
  induction cs with
  | nil => rfl
  | cons c cs ih =>
    by_cases hc : p c = true
    · simpa [trimStart, List.dropWhile_cons, hc] using ih
    · simp [trimStart, hc]

/-- The characters that are removed and those that stay are the text. -/
theorem takeWhile_append_trimStart (p : Char → Bool) (cs : List Char) :
    cs.takeWhile p ++ trimStart p cs = cs :=
  List.takeWhile_append_dropWhile

/-- What trimming removes stands around what it leaves. -/
theorem exists_of_trimBoth (p : Char → Bool) (cs : List Char) :
    ∃ before after, cs = before ++ trimBoth p cs ++ after ∧
      ∀ c ∈ before ++ after, p c := by
  let middle := trimStart p cs
  refine ⟨cs.takeWhile p, (middle.reverse.takeWhile p).reverse, ?_, ?_⟩
  · have hends : trimEnd p middle ++ (middle.reverse.takeWhile p).reverse = middle := by
      rw [trimEnd, ← List.reverse_append, List.takeWhile_append_dropWhile,
        List.reverse_reverse]
    rw [List.append_assoc, trimBoth, hends, takeWhile_append_trimStart]
  · intro c hc
    rcases List.mem_append.1 hc with hc | hc
    · exact List.all_eq_true.1 List.all_takeWhile c hc
    · exact List.all_eq_true.1 List.all_takeWhile c (List.mem_reverse.1 hc)

/-- Trimming keeps the characters that it does not look for. -/
theorem filter_trimBoth (p : Char → Bool) (cs : List Char) :
    (trimBoth p cs).filter (fun c => !p c) = cs.filter (fun c => !p c) := by
  obtain ⟨before, after, hcs, hblank⟩ := exists_of_trimBoth p cs
  have hnone : ∀ ds : List Char, (∀ c ∈ ds, p c) → ds.filter (fun c => !p c) = [] := by
    intro ds hds
    rw [List.filter_eq_nil_iff]
    intro c hc
    simp [hds c hc]
  calc (trimBoth p cs).filter (fun c => !p c)
      = (before ++ trimBoth p cs ++ after).filter (fun c => !p c) := by
        rw [List.filter_append, List.filter_append,
          hnone before fun c hc => hblank c (List.mem_append_left _ hc),
          hnone after fun c hc => hblank c (List.mem_append_right _ hc), List.nil_append,
          List.append_nil]
    _ = cs.filter (fun c => !p c) := by rw [← hcs]

/-- What stands before a text is trimmed away if and only if nothing in it would stay. -/
theorem trimBoth_append_eq_iff (p : Char → Bool) (before cs : List Char) :
    trimBoth p (before ++ cs) = trimBoth p cs ↔ ∀ c ∈ before, p c := by
  constructor
  · intro h
    have hkept := congrArg (List.filter fun c => !p c) h
    rw [filter_trimBoth, filter_trimBoth, List.filter_append, List.append_left_eq_self] at hkept
    intro c hc
    simpa using List.filter_eq_nil_iff.1 hkept c hc
  · intro h
    rw [trimBoth, trimStart, List.dropWhile_append_of_pos h, ← trimStart, ← trimBoth]

end SqlWorkflow.Text
