import SqlWorkflow.Target.Reference

/-!
# Texts that spell references

A text of one to three parts with dots between them spells a reference, and any other text is a name
as a whole.  The reference tells the text (`readable_parse`).  The other way round, a reference is
spelled by the text that it is written as if and only if any text spells it
(`parse_readable_eq_iff`), which is a matter of its parts alone (`Spelled`).

- **§1** Splitting and joining strings.
- **§2** Parts of references.
- **§3** The references that texts spell.
-/

namespace SqlWorkflow

/-! ## §1 Splitting and joining -/

namespace Text

theorem join_map_ofList (sep : Char) (parts : List (List Char)) :
    join (String.singleton sep) (parts.map String.ofList) = String.ofList (joinAt sep parts) := by
  induction parts with
  | nil => rfl
  | cons part parts ih =>
    cases parts with
    | nil => rfl
    | cons second parts =>
      show String.ofList part ++ String.singleton sep ++
        join (String.singleton sep) ((second :: parts).map String.ofList) =
          String.ofList (part ++ sep :: joinAt sep (second :: parts))
      rw [ih, String.append_assoc, String.singleton_eq_ofList, ← String.ofList_append,
        ← String.ofList_append, List.singleton_append]

/-- The parts of a text, joined again, are the text. -/
theorem join_split (sep : Char) (s : String) : join (String.singleton sep) (split sep s) = s := by
  rw [split, join_map_ofList, joinAt_splitAt, String.ofList_toList]

/-- Parts that do not hold the separator are found again when they have been joined. -/
theorem split_join {sep : Char} {parts : List String} (hne : parts ≠ [])
    (h : ∀ part ∈ parts, sep ∉ part.toList) :
    split sep (join (String.singleton sep) parts) = parts := by
  obtain ⟨css, rfl⟩ : ∃ css : List (List Char), parts = css.map String.ofList :=
    ⟨parts.map String.toList, by simp⟩
  rw [join_map_ofList, split, String.toList_ofList, splitAt_joinAt (by simpa using hne)]
  intro cs hcs
  simpa using h _ (List.mem_map_of_mem hcs)

end Text

namespace TargetRef

/-! ## §2 Parts -/

/-- The parts that are present, the name last. -/
def parts (r : TargetRef) : List String := r.database.toList ++ r.schema.toList ++ [r.name]

/-- Parts spell the reference that has them, if its name is not empty. -/
theorem ofParts_eq_ok_iff {parts : List String} {r : TargetRef} :
    ofParts parts = .ok r ↔
      parts = r.parts ∧ r.name ≠ "" ∧ (r.schema = none → r.database = none) := by
  obtain ⟨database, schema, name⟩ := r
  rcases parts with _ | ⟨a, _ | ⟨b, _ | ⟨c, _ | ⟨d, rest⟩⟩⟩⟩ <;>
    cases database <;> cases schema <;> simp [ofParts, TargetRef.parts] <;> grind

/-- Parts spell no reference if the last one is empty or if there are more than three. -/
theorem exists_ofParts_eq_error_iff {parts : List String} (hne : parts ≠ []) :
    (∃ e, ofParts parts = .error e) ↔ parts.getLast? = some "" ∨ 3 < parts.length := by
  rcases parts with _ | ⟨a, _ | ⟨b, _ | ⟨c, _ | ⟨d, rest⟩⟩⟩⟩
  · exact absurd rfl hne
  · by_cases ha : a = "" <;> simp [ofParts, ha]
  · by_cases hb : b = "" <;> simp [ofParts, hb]
  · by_cases hc : c = "" <;> simp [ofParts, hc]
  · simp [ofParts]

theorem exists_ofParts_split_eq_error_iff {text : String} :
    (∃ e, ofParts (Text.split '.' text) = .error e) ↔
      text = "" ∨ text.toList.getLast? = some '.' ∨ 3 ≤ text.toList.count '.' := by
  have hne : Text.split '.' text ≠ [] := by simp [Text.split]
  have hlast : (Text.split '.' text).getLast? = some "" ↔
      text = "" ∨ text.toList.getLast? = some '.' := by
    rw [← String.toList_eq_nil_iff, ← Text.getLast?_splitAt_eq_nil_iff, Text.split,
      List.getLast?_map]
    cases (Text.splitAt '.' text.toList).getLast? <;> simp
  have hlength : 3 < (Text.split '.' text).length ↔ 3 ≤ text.toList.count '.' := by
    rw [Text.split, List.length_map, Text.length_splitAt, Nat.lt_succ_iff]
  rw [exists_ofParts_eq_error_iff hne, hlast, hlength, or_assoc]

/-- A reference tells the text that spells it. -/
theorem readable_parse (text : String) : (parse text).readable = text := by
  unfold parse
  split
  · next r hparts =>
    have hreadable : r.readable = Text.join "." r.parts := rfl
    rw [hreadable, ← (ofParts_eq_ok_iff.1 hparts).1]
    exact Text.join_split '.' text
  · rfl

/-! ## §3 The references that texts spell -/

/-- The references that texts spell. -/
inductive Spelled : TargetRef → Prop
  /-- One to three parts without dots, of which the last is not empty. -/
  | parts {r : TargetRef} (hdots : ∀ part ∈ r.parts, '.' ∉ part.toList) (hname : r.name ≠ "")
      (hschema : r.schema = none → r.database = none) : Spelled r
  /-- A text that spells no such parts is a name as a whole. -/
  | whole {name : String}
      (h : name = "" ∨ name.toList.getLast? = some '.' ∨ 3 ≤ name.toList.count '.') :
      Spelled (named name)

/-- A text whose parts spell no reference is a name as a whole. -/
theorem parse_of_ofParts_eq_error {text : String}
    (h : ∃ e, ofParts (Text.split '.' text) = .error e) : parse text = named text := by
  obtain ⟨e, he⟩ := h
  rw [parse, he]

/-- What a text spells is one of these. -/
theorem spelled_parse (text : String) : (parse text).Spelled := by
  cases hparts : ofParts (Text.split '.' text) with
  | error e =>
    rw [parse_of_ofParts_eq_error ⟨e, hparts⟩]
    exact .whole (exists_ofParts_split_eq_error_iff.1 ⟨e, hparts⟩)
  | ok r =>
    rw [parse, hparts]
    obtain ⟨heq, hname, hschema⟩ := ofParts_eq_ok_iff.1 hparts
    refine .parts (fun part hpart => ?_) hname hschema
    rw [← heq, Text.split, List.mem_map] at hpart
    obtain ⟨cs, hcs, rfl⟩ := hpart
    rw [String.toList_ofList]
    exact Text.not_mem_of_mem_splitAt hcs

/-- These are spelled by the text that they are written as. -/
theorem Spelled.parse_readable {r : TargetRef} (h : r.Spelled) : parse r.readable = r := by
  cases h with
  | parts hdots hname hschema =>
    have hsplit : Text.split '.' r.readable = r.parts := Text.split_join (by simp) hdots
    rw [parse, hsplit, ofParts_eq_ok_iff.2 ⟨rfl, hname, hschema⟩]
  | whole h => exact parse_of_ofParts_eq_error (exists_ofParts_split_eq_error_iff.2 h)

/-- A reference is read back from the text that it is written as if and only if some text spells
it. -/
theorem parse_readable_eq_iff {r : TargetRef} : parse r.readable = r ↔ r.Spelled :=
  ⟨fun h => h ▸ spelled_parse r.readable, Spelled.parse_readable⟩

instance (r : TargetRef) : Decidable r.Spelled := decidable_of_iff _ parse_readable_eq_iff

end TargetRef

end SqlWorkflow
