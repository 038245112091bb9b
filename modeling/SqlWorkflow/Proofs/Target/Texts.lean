import SqlWorkflow.Action.Registration
import SqlWorkflow.Proofs.Json.Reading
import SqlWorkflow.Proofs.Target.Spelling
import Mathlib.Data.List.Nodup
import Mathlib.Data.Set.Function

/-!
# Texts that identify targets

A target is known by two texts.  Its key is the JSON text of its components, which tells the target
whatever the components hold (`key_eq_key_iff`).  Its readable text tells the target exactly if the
name is not empty and no component holds a dot: then, and only then, the text is read back as the
full reference to the target (`parse_readable_eq_ofTarget_iff`).

- **§1** Keys.
- **§2** Readable texts.
- **§3** Inputs of unit tests: at most one has a name that spells a given reference.
-/

namespace SqlWorkflow

/-! ## §1 Keys -/

namespace Target

/-- The components as JSON, an absent database being `null`. -/
def components (t : Target) : Json :=
  .arr [(t.database.map Json.str).getD .null, .str t.schema, .str t.name]

theorem whole_components (t : Target) : t.components.Whole := by
  apply Json.allWhole_of_forall
  intro v hv
  simp only [List.mem_cons, List.not_mem_nil, or_false] at hv
  rcases hv with rfl | rfl | rfl
  · cases t.database <;> trivial
  · trivial
  · trivial

/-- An absent database is not written like any text. -/
theorem toDoc_components_inj {a b : Target} (h : a.components.toDoc = b.components.toDoc) :
    a = b := by
  obtain ⟨database, schema, name⟩ := a
  obtain ⟨database', schema', name'⟩ := b
  simp only [components, Json.toDoc, Json.toDocs, Doc.seq.injEq, List.cons.injEq, Doc.text.injEq,
    and_true] at h
  obtain ⟨hdatabase, rfl, rfl⟩ := h
  congr 1
  cases database with
  | none =>
    cases database' with
    | none => rfl
    | some d' => cases hdatabase
  | some d =>
    cases database' with
    | none => cases hdatabase
    | some d' =>
      cases hdatabase
      rfl

/-- Different targets have different keys, whatever characters their components hold. -/
theorem key_eq_key_iff (a b : Target) : a.key = b.key ↔ a = b := by
  constructor
  · intro h
    -- The key is read back as the components.
    exact toDoc_components_inj (Json.toDoc_eq_of_compact_eq a.whole_components b.whole_components h)
  · rintro rfl
    rfl

/-- A database that is called `null` is none the less a database. -/
example : key ⟨some "null", "s", "t"⟩ = "[\"null\",\"s\",\"t\"]" ∧
    key ⟨none, "s", "t"⟩ = "[null,\"s\",\"t\"]" := by
  decide +kernel

end Target

/-! ## §2 Readable texts -/

namespace TargetRef

/-- The full reference to a target is written as the target is. -/
theorem readable_ofTarget (t : Target) : (ofTarget t).readable = t.readable := by
  obtain ⟨database, schema, name⟩ := t
  cases database with
  | none => rfl
  | some d =>
    show d ++ "." ++ (schema ++ "." ++ name) = d ++ "." ++ schema ++ "." ++ name
    simp only [String.append_assoc]

theorem ofTarget_injective : Function.Injective ofTarget := by
  rintro ⟨database, schema, name⟩ ⟨database', schema', name'⟩ h
  cases h
  rfl

/-- What is checked of the components is what a reference needs of its parts. -/
theorem componentErrors_eq_nil_iff (t : Target) :
    t.componentErrors = [] ↔ ∀ part ∈ (ofTarget t).parts, '.' ∉ part.toList := by
  obtain ⟨database, schema, name⟩ := t
  cases database <;> simp [Target.componentErrors, Target.hasDot, parts, ofTarget] <;> tauto

/-- The full reference to a target is spelled by a text if its name is not empty and its components
hold no dots. -/
theorem spelled_ofTarget_iff (t : Target) :
    (ofTarget t).Spelled ↔ t.name ≠ "" ∧ t.componentErrors = [] := by
  rw [componentErrors_eq_nil_iff]
  constructor
  · intro h
    -- The reference has a schema, so it is no name as a whole.
    generalize hr : ofTarget t = r at h
    cases h with
    | parts hdots hname _ =>
      subst hr
      exact ⟨hname, hdots⟩
    | whole _ => exact absurd (congrArg TargetRef.schema hr) (Option.some_ne_none t.schema)
  · rintro ⟨hname, hdots⟩
    exact .parts hdots hname fun hnone => absurd hnone (Option.some_ne_none t.schema)

/-- The readable text of a target is read back as the full reference to it if and only if its name
is not empty and nothing is wrong with its components. -/
theorem parse_readable_eq_ofTarget_iff (t : Target) :
    parse t.readable = ofTarget t ↔ t.name ≠ "" ∧ t.componentErrors = [] := by
  rw [← readable_ofTarget, parse_readable_eq_iff, spelled_ofTarget_iff]

theorem parse_injective : Function.Injective parse :=
  Function.LeftInverse.injective readable_parse

end TargetRef

/-! ## §3 Inputs of unit tests -/

/-- A name stands in a dictionary at most once. -/
theorem Dict.nodup_keys {α : Type} (d : Dict α) : d.keys.Nodup := by
  rw [Dict.keys, List.Nodup, List.pairwise_map]
  exact d.sorted.imp fun hlt => String.ne_of_lt hlt

namespace UnitTest

/-- Of the inputs of a test at most one has a name that spells a given reference. -/
theorem countP_inputs_le_one (test : UnitTest) (r : TargetRef) :
    test.inputs.entries.countP (fun input => TargetRef.parse input.1 = r) ≤ 1 := by
  -- Its name is the text of the reference.
  have hname : ∀ input ∈ test.inputs.entries, decide (TargetRef.parse input.1 = r) = true →
      (input.1 == r.readable) = true := by
    intro input _ hspells
    rw [beq_iff_eq, ← of_decide_eq_true hspells, TargetRef.readable_parse]
  calc test.inputs.entries.countP (fun input => TargetRef.parse input.1 = r)
      ≤ test.inputs.entries.countP (fun input => input.1 == r.readable) :=
        List.countP_mono_left hname
    _ = test.inputs.keys.count r.readable := by
        rw [Dict.keys, List.count, List.countP_map]
        rfl
    _ ≤ 1 := List.nodup_iff_count_le_one.1 test.inputs.nodup_keys r.readable

end UnitTest

namespace TargetRef

/-- Reading a text as a reference loses nothing of the text, so no two texts are read alike and no
two inputs of a unit test stand for one reference.  The readable text of a target is read back as
the full reference to it exactly if the target has a name and no dots in its components, so no two
of these targets are written alike. -/
theorem texts_read_back :
    (∀ text, (parse text).readable = text) ∧ Function.Injective parse ∧
      (∀ (test : UnitTest) (r : TargetRef),
        test.inputs.entries.countP (fun input => parse input.1 = r) ≤ 1) ∧
      (∀ t : Target, parse t.readable = ofTarget t ↔ t.name ≠ "" ∧ t.componentErrors = []) ∧
      Set.InjOn Target.readable {t | t.name ≠ "" ∧ t.componentErrors = []} := by
  refine ⟨readable_parse, parse_injective, fun test r => test.countP_inputs_le_one r,
    parse_readable_eq_ofTarget_iff, ?_⟩
  intro a ha b hb h
  apply ofTarget_injective
  rw [← (parse_readable_eq_ofTarget_iff a).2 ha, ← (parse_readable_eq_ofTarget_iff b).2 hb, h]

/-- A target with an empty schema, and a text of four parts with an empty one among them. -/
theorem texts_read_back_emptyParts :
    let t : Target := ⟨some "", "", "it's `t`"⟩
    t.readable = "..it's `t`" ∧ parse "..it's `t`" = ofTarget t ∧
      (parse "a..b.c").readable = "a..b.c" ∧ (parse "a..b.c").name = "a..b.c" ∧
      ∀ t' : Target, t'.name ≠ "" → t'.componentErrors = [] → t'.readable = "..it's `t`" →
        t' = t := by
  intro t
  have hname : t.name ≠ "" := by decide
  have hcomponents : t.componentErrors = [] := by decide +kernel
  have hreadable : t.readable = "..it's `t`" := by decide +kernel
  obtain ⟨hparse, -, -, htarget, hinjective⟩ := texts_read_back
  refine ⟨hreadable, hreadable ▸ (htarget t).2 ⟨hname, hcomponents⟩, hparse _, by decide +kernel,
    ?_⟩
  intro t' hname' hcomponents' hreadable'
  exact hinjective ⟨hname', hcomponents'⟩ ⟨hname, hcomponents⟩ (hreadable'.trans hreadable.symm)

end TargetRef

end SqlWorkflow
