/-!
# Splitting and replacing

Splitting a text at every occurrence of a character gives one part more than there are
occurrences (`length_splitAt`); joining the parts with that character gives the text back
(`joinAt_splitAt`), and splitting what has been joined gives back parts that do not hold the
character (`splitAt_joinAt`).  So the parts of a text are known without splitting it
(`splitAt_eq_iff`).  A text is also cut in two where a character occurs first
(`cutAt?_singleton_eq_some_iff`, `takeWhile_append_cons`).
-/

namespace SqlWorkflow.Text

/-- The parts of a text between the occurrences of `sep`; at least one. -/
def splitAt (sep : Char) : List Char → List (List Char)
  | [] => [[]]
  | c :: cs =>
    if c = sep then [] :: splitAt sep cs
    else
      match splitAt sep cs with
      | [] => [[c]]
      | part :: parts => (c :: part) :: parts

/-- The parts with `sep` between neighbours. -/
def joinAt (sep : Char) : List (List Char) → List Char
  | [] => []
  | [part] => part
  | part :: parts => part ++ sep :: joinAt sep parts

/-- The parts of a string between the occurrences of `sep`. -/
def split (sep : Char) (s : String) : List String :=
  (splitAt sep s.toList).map String.ofList

/-- The strings with `sep` between neighbours. -/
def join (sep : String) : List String → String
  | [] => ""
  | [part] => part
  | part :: parts => part ++ sep ++ join sep parts

/-- The text with every occurrence of `old` replaced by the text `new`. -/
def replaceChar (old : Char) (new : List Char) : List Char → List Char
  | [] => []
  | c :: cs => if c = old then new ++ replaceChar old new cs else c :: replaceChar old new cs

/-- The characters before the first one that satisfies `p`, and the rest from that one on. -/
def breakOn (p : Char → Bool) (cs : List Char) : List Char × List Char :=
  (cs.takeWhile (fun c => !p c), cs.dropWhile (fun c => !p c))

/-- Does the text start with `lead`, and what follows it? -/
def dropLead? : List Char → List Char → Option (List Char)
  | [], cs => some cs
  | _ :: _, [] => none
  | a :: lead, c :: cs => if a = c then dropLead? lead cs else none

/-- The text before the first occurrence of `needle` and the text after it. -/
def cutAt? (needle : List Char) : List Char → Option (List Char × List Char)
  | [] => if needle.isEmpty then some ([], []) else none
  | c :: cs =>
    match dropLead? needle (c :: cs) with
    | some rest => some ([], rest)
    | none => (cutAt? needle cs).map fun (before, after) => (c :: before, after)

/-- Does `needle` occur in the text? -/
def occursIn (needle cs : List Char) : Bool :=
  (cutAt? needle cs).isSome

/-- The words of a text: its longest runs of characters outside `p`. -/
def wordsOf (p : Char → Bool) (cs : List Char) : List (List Char) :=
  let step (c : Char) (acc : List Char × List (List Char)) : List Char × List (List Char) :=
    if p c then ([], if acc.1.isEmpty then acc.2 else acc.1 :: acc.2) else (c :: acc.1, acc.2)
  let last := cs.foldr step ([], [])
  if last.1.isEmpty then last.2 else last.1 :: last.2

@[simp] theorem splitAt_ne_nil (sep : Char) (cs : List Char) : splitAt sep cs ≠ [] := by
  cases cs with
  | nil => simp [splitAt]
  | cons c cs =>
    simp only [splitAt]
    split
    · simp
    · split <;> simp

/-- Joining what splitting gives is the text again. -/
theorem joinAt_splitAt (sep : Char) (cs : List Char) : joinAt sep (splitAt sep cs) = cs := by
  induction cs with
  | nil => rfl
  | cons c cs ih =>
    by_cases hc : c = sep
    · simp only [splitAt, hc, if_true]
      cases hs : splitAt sep cs with
      | nil => exact absurd hs (splitAt_ne_nil sep cs)
      | cons part parts => rw [hs] at ih; simp [joinAt, ih]
    · simp only [splitAt, hc, if_false]
      cases hs : splitAt sep cs with
      | nil => exact absurd hs (splitAt_ne_nil sep cs)
      | cons part parts =>
        rw [hs] at ih
        cases parts with
        | nil => simpa [joinAt] using ih
        | cons p ps => simpa [joinAt] using ih

/-- There is one part more than there are separators. -/
theorem length_splitAt (sep : Char) (cs : List Char) :
    (splitAt sep cs).length = cs.count sep + 1 := by
  induction cs with
  | nil => rfl
  | cons c cs ih =>
    by_cases hc : c = sep
    · rw [splitAt, if_pos hc, List.length_cons, ih, hc, List.count_cons_self]
    · rw [List.count_cons_of_ne hc, ← ih, splitAt, if_neg hc]
      cases hs : splitAt sep cs with
      | nil => exact absurd hs (splitAt_ne_nil sep cs)
      | cons part parts => rfl

/-- No part holds the separator. -/
theorem not_mem_of_mem_splitAt {sep : Char} {cs part : List Char} (h : part ∈ splitAt sep cs) :
    sep ∉ part := by
  induction cs generalizing part with
  | nil =>
    rw [splitAt, List.mem_singleton] at h
    exact h ▸ List.not_mem_nil
  | cons c cs ih =>
    rw [splitAt] at h
    split at h
    · rcases List.mem_cons.1 h with rfl | h
      · exact List.not_mem_nil
      · exact ih h
    · next hc =>
      cases hs : splitAt sep cs with
      | nil => exact absurd hs (splitAt_ne_nil sep cs)
      | cons first parts =>
        rw [hs] at h ih
        rcases List.mem_cons.1 h with rfl | h
        · rw [List.mem_cons, not_or]
          exact ⟨Ne.symm hc, ih List.mem_cons_self⟩
        · exact ih (List.mem_cons_of_mem _ h)

theorem splitAt_of_not_mem {sep : Char} {cs : List Char} (h : sep ∉ cs) :
    splitAt sep cs = [cs] := by
  induction cs with
  | nil => rfl
  | cons c cs ih =>
    rw [List.mem_cons, not_or] at h
    rw [splitAt, if_neg (Ne.symm h.1), ih h.2]

/-- A text is split at each of its separators. -/
theorem splitAt_append_cons (sep : Char) (cs ds : List Char) :
    splitAt sep (cs ++ sep :: ds) = splitAt sep cs ++ splitAt sep ds := by
  induction cs with
  | nil => simp [splitAt]
  | cons c cs ih =>
    rw [List.cons_append, splitAt, splitAt, ih]
    split
    · rfl
    · cases hs : splitAt sep cs with
      | nil => exact absurd hs (splitAt_ne_nil sep cs)
      | cons part parts => rfl

/-- The last part of a text ends as the text does, if no separator is there. -/
theorem getLast?_splitAt_append {sep : Char} {ending : List Char} (h : sep ∉ ending)
    (cs : List Char) :
    ∃ start, (splitAt sep (cs ++ ending)).getLast? = some (start ++ ending) := by
  induction cs with
  | nil => exact ⟨[], by simp [splitAt_of_not_mem h]⟩
  | cons c cs ih =>
    obtain ⟨start, hlast⟩ := ih
    rw [List.cons_append, splitAt]
    split
    · exact ⟨start, by rw [List.getLast?_cons, hlast]; rfl⟩
    · cases hs : splitAt sep (cs ++ ending) with
      | nil => exact absurd hs (splitAt_ne_nil sep _)
      | cons part parts =>
        rw [hs, List.getLast?_cons] at hlast
        cases hp : parts.getLast? with
        | none =>
          simp only [hp, Option.getD_none, Option.some.injEq] at hlast
          exact ⟨c :: start, by simp [hp, hlast, List.getLast?_cons]⟩
        | some last =>
          simp only [hp, Option.getD_some, Option.some.injEq] at hlast
          exact ⟨start, by simp [hp, hlast, List.getLast?_cons]⟩

/-- Parts that do not hold the separator are found again when they have been joined. -/
theorem splitAt_joinAt {sep : Char} {parts : List (List Char)} (hne : parts ≠ [])
    (h : ∀ part ∈ parts, sep ∉ part) : splitAt sep (joinAt sep parts) = parts := by
  induction parts with
  | nil => exact absurd rfl hne
  | cons part parts ih =>
    have hpart := splitAt_of_not_mem (h part List.mem_cons_self)
    cases parts with
    | nil => exact hpart
    | cons second parts =>
      have hrest := ih (List.cons_ne_nil second parts) fun p hp => h p (List.mem_cons_of_mem _ hp)
      rw [joinAt, splitAt_append_cons, hpart, hrest, List.singleton_append]
      exact List.cons_ne_nil second parts

/-- Splitting finds the parts of a text, which are without the separator. -/
theorem splitAt_eq_iff {sep : Char} {cs : List Char} {parts : List (List Char)} :
    splitAt sep cs = parts ↔
      parts ≠ [] ∧ (∀ part ∈ parts, sep ∉ part) ∧ cs = joinAt sep parts := by
  constructor
  · rintro rfl
    exact ⟨splitAt_ne_nil sep cs, fun _ => not_mem_of_mem_splitAt, (joinAt_splitAt sep cs).symm⟩
  · rintro ⟨hne, hparts, rfl⟩
    exact splitAt_joinAt hne hparts

/-- The parts of a text are all of a sort if and only if the text is made of such parts. -/
theorem forall_mem_splitAt_iff {sep : Char} {p : List Char → Prop} {cs : List Char}
    (hsep : ∀ part, p part → sep ∉ part) :
    (∀ part ∈ splitAt sep cs, p part) ↔
      ∃ parts, parts ≠ [] ∧ (∀ part ∈ parts, p part) ∧ cs = joinAt sep parts := by
  constructor
  · intro h
    exact ⟨_, splitAt_ne_nil sep cs, h, (joinAt_splitAt sep cs).symm⟩
  · rintro ⟨parts, hne, hparts, rfl⟩
    rwa [splitAt_joinAt hne fun part hpart => hsep part (hparts part hpart)]

theorem joinAt_concat {sep : Char} {parts : List (List Char)} (hne : parts ≠ [])
    (last : List Char) : joinAt sep (parts ++ [last]) = joinAt sep parts ++ sep :: last := by
  induction parts with
  | nil => exact absurd rfl hne
  | cons part parts ih =>
    cases parts with
    | nil => rfl
    | cons second parts =>
      have hrest := ih (List.cons_ne_nil second parts)
      change part ++ sep :: joinAt sep (second :: parts ++ [last]) =
        (part ++ sep :: joinAt sep (second :: parts)) ++ sep :: last
      rw [hrest, List.append_assoc, List.cons_append]

theorem mem_joinAt {sep c : Char} {parts : List (List Char)} {part : List Char}
    (hpart : part ∈ parts) (hc : c ∈ part) : c ∈ joinAt sep parts := by
  fun_induction joinAt sep parts with
  | case1 => cases hpart
  | case2 only => exact List.mem_singleton.1 hpart ▸ hc
  | case3 first parts _ ih =>
    rcases List.mem_cons.1 hpart with rfl | hpart
    · exact List.mem_append_left _ hc
    · exact List.mem_append_right _ (List.mem_cons_of_mem _ (ih hpart))

/-- What joined parts hold is the separator or stands in a part. -/
theorem mem_of_mem_joinAt {sep c : Char} {parts : List (List Char)} (h : c ∈ joinAt sep parts) :
    c = sep ∨ ∃ part ∈ parts, c ∈ part := by
  fun_induction joinAt sep parts with
  | case1 => cases h
  | case2 part => exact .inr ⟨part, List.mem_cons_self, h⟩
  | case3 part parts hne ih =>
    rcases List.mem_append.1 h with h | h
    · exact .inr ⟨part, List.mem_cons_self, h⟩
    · rcases List.mem_cons.1 h with h | h
      · exact .inl h
      · obtain hsep | ⟨other, hother, hmem⟩ := ih h
        · exact .inl hsep
        · exact .inr ⟨other, List.mem_cons_of_mem _ hother, hmem⟩

/-- The last part is empty if and only if nothing comes after the last separator. -/
theorem getLast?_splitAt_eq_nil_iff {sep : Char} {cs : List Char} :
    (splitAt sep cs).getLast? = some [] ↔ cs = [] ∨ cs.getLast? = some sep := by
  rcases cs.eq_nil_or_concat with rfl | ⟨ds, c, rfl⟩
  · simp [splitAt]
  · by_cases hc : c = sep
    · subst hc
      rw [List.concat_eq_append, splitAt_append_cons]
      simp [splitAt]
    · have hother : sep ∉ [c] := fun hmem => hc (List.mem_singleton.1 hmem).symm
      obtain ⟨start, hlast⟩ := getLast?_splitAt_append hother ds
      rw [List.concat_eq_append, hlast]
      simp [hc]

/-- The last text stands at the end, and each of the others with the separator after it. -/
theorem toList_join_concat (sep : String) (texts : List String) (last : String) :
    (join sep (texts ++ [last])).toList =
      (texts.flatMap fun text => text.toList ++ sep.toList) ++ last.toList := by
  induction texts with
  | nil => rfl
  | cons text texts ih =>
    obtain ⟨second, rest, hrest⟩ := List.exists_cons_of_ne_nil
      (List.append_ne_nil_of_right_ne_nil texts (List.cons_ne_nil last []))
    rw [List.cons_append, hrest, join, ← hrest, String.toList_append, String.toList_append, ih,
      List.flatMap_cons, List.append_assoc, List.append_assoc, List.append_assoc]
    exact List.cons_ne_nil second rest

theorem replaceChar_append (old : Char) (new cs ds : List Char) :
    replaceChar old new (cs ++ ds) = replaceChar old new cs ++ replaceChar old new ds := by
  induction cs with
  | nil => rfl
  | cons c cs ih =>
    rw [List.cons_append, replaceChar, replaceChar, ih]
    split <;> simp

theorem replaceChar_of_not_mem {old : Char} {new cs : List Char} (h : old ∉ cs) :
    replaceChar old new cs = cs := by
  induction cs with
  | nil => rfl
  | cons c cs ih =>
    rw [List.mem_cons, not_or] at h
    rw [replaceChar, if_neg (Ne.symm h.1), ih h.2]

theorem not_mem_replaceChar {old : Char} {new cs : List Char} (h : old ∉ new) :
    old ∉ replaceChar old new cs := by
  induction cs with
  | nil => exact List.not_mem_nil
  | cons c cs ih =>
    rw [replaceChar]
    split
    · simp [h, ih]
    · next hne => simp [Ne.symm hne, ih]

theorem mem_of_mem_replaceChar {old c : Char} {new cs : List Char}
    (h : c ∈ replaceChar old new cs) : c ∈ new ∨ c ∈ cs := by
  induction cs with
  | nil => cases h
  | cons d cs ih =>
    rw [replaceChar] at h
    split at h
    · rcases List.mem_append.1 h with hnew | hrest
      · exact .inl hnew
      · exact (ih hrest).imp_right (List.mem_cons_of_mem _)
    · rcases List.mem_cons.1 h with rfl | hrest
      · exact .inr List.mem_cons_self
      · exact (ih hrest).imp_right (List.mem_cons_of_mem _)

theorem mem_replaceChar_of_ne {old c : Char} {new cs : List Char} (hne : c ≠ old) (h : c ∈ cs) :
    c ∈ replaceChar old new cs := by
  obtain ⟨before, after, rfl⟩ := List.append_of_mem h
  rw [replaceChar_append, replaceChar, if_neg hne]
  simp

/-- A single character in the place of another one. -/
theorem replaceChar_singleton (old new : Char) (cs : List Char) :
    replaceChar old [new] cs = cs.map fun c => if c = old then new else c := by
  induction cs with
  | nil => rfl
  | cons c cs ih =>
    rw [replaceChar, List.map_cons, ih]
    split <;> rfl

/-- What follows a lead is the text without it. -/
theorem eq_append_of_dropLead? {lead cs rest : List Char} (h : dropLead? lead cs = some rest) :
    cs = lead ++ rest := by
  induction lead generalizing cs with
  | nil => simpa [dropLead?] using h
  | cons a lead ih =>
    cases cs with
    | nil => simp [dropLead?] at h
    | cons c cs =>
      by_cases hac : a = c
      · simp only [dropLead?, hac, if_true] at h
        simp [hac, ih h]
      · simp [dropLead?, hac] at h

/-- What is cut out of a text lies between what is before it and what is after it. -/
theorem eq_append_of_cutAt? {needle cs before after : List Char}
    (h : cutAt? needle cs = some (before, after)) : cs = before ++ (needle ++ after) := by
  induction cs generalizing before after with
  | nil =>
    rw [cutAt?] at h
    split at h
    · next hn =>
      cases h
      simp [List.isEmpty_iff.1 hn]
    · cases h
  | cons c cs ih =>
    rw [cutAt?] at h
    split at h
    · next hd =>
      cases h
      simpa using eq_append_of_dropLead? hd
    · obtain ⟨⟨before', after'⟩, hc, heq⟩ := Option.map_eq_some_iff.1 h
      simp only [Prod.mk.injEq] at heq
      simp [← heq.1, ← heq.2, ih hc]

/-- A text is cut at the first occurrence of a character. -/
theorem cutAt?_singleton_eq_some_iff {sep : Char} {cs before after : List Char} :
    cutAt? [sep] cs = some (before, after) ↔ cs = before ++ sep :: after ∧ sep ∉ before := by
  induction cs generalizing before with
  | nil => simp [cutAt?]
  | cons c cs ih =>
    by_cases hc : sep = c
    · subst hc
      cases before with
      | nil => simp [cutAt?, dropLead?, eq_comm]
      | cons d before =>
        -- Nothing stands before the separator that the text starts with.
        simp only [cutAt?, dropLead?, if_true, List.cons_append, List.cons.injEq, List.mem_cons]
        grind
    · have hcut : cutAt? [sep] (c :: cs) =
          (cutAt? [sep] cs).map fun (before, after) => (c :: before, after) := by
        simp [cutAt?, dropLead?, hc]
      rw [hcut, Option.map_eq_some_iff]
      constructor
      · rintro ⟨⟨start, rest⟩, hfound, heq⟩
        cases heq
        obtain ⟨rfl, hnot⟩ := ih.1 hfound
        simp [hc, hnot]
      · rintro ⟨heq, hnot⟩
        cases before with
        | nil => exact absurd (List.cons.inj heq).1.symm hc
        | cons d before =>
          cases heq
          exact ⟨(before, after), ih.2 ⟨rfl, fun h => hnot (List.mem_cons_of_mem _ h)⟩, rfl⟩

theorem bne_of_not_mem {sep : Char} {cs : List Char} (h : sep ∉ cs) :
    ∀ c ∈ cs, (c != sep) = true := by
  intro c hc
  rw [bne_iff_ne]
  rintro rfl
  exact h hc

/-- What stands before the first occurrence of a character. -/
theorem takeWhile_append_cons {sep : Char} {cs : List Char} (h : sep ∉ cs) (rest : List Char) :
    (cs ++ sep :: rest).takeWhile (· != sep) = cs := by
  rw [List.takeWhile_append_of_pos (bne_of_not_mem h)]
  simp

/-- What is left from the first occurrence of a character on. -/
theorem dropWhile_append_cons {sep : Char} {cs : List Char} (h : sep ∉ cs) (rest : List Char) :
    (cs ++ sep :: rest).dropWhile (· != sep) = sep :: rest := by
  rw [List.dropWhile_append_of_pos (bne_of_not_mem h)]
  simp

/-- Nothing is left if the character does not occur. -/
theorem dropWhile_of_not_mem {sep : Char} {cs : List Char} (h : sep ∉ cs) :
    cs.dropWhile (· != sep) = [] := by
  rw [← List.append_nil cs, List.dropWhile_append_of_pos (bne_of_not_mem h)]
  rfl

end SqlWorkflow.Text
