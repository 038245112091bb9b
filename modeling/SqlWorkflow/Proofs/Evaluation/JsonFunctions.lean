import SqlWorkflow.Evaluation.Run
import SqlWorkflow.Proofs.Json.Values
import SqlWorkflow.Proofs.Template.Fuel
import SqlWorkflow.Proofs.Template.Interchange

/-!
# JSON texts in templates

Templates read JSON texts with `from_json` and write values with `to_json`.  A text whose numbers
are whole and fit 64 bits with their sign is written as a text that denotes the same
(`spends_toJson_fromJson`).  There are greater numbers of 64 bits that are read as one value
(`fromJson_greatest_eq`), so that no function could write both of them as they were.

- **§1** What the functions make of texts and values.
- **§2** Calls of the functions in a template.
-/

namespace SqlWorkflow.Evaluation

open Template

/-! ## §1 The functions -/

namespace Helper

variable (vars : Dict String) {text : String} {v : Json}

theorem ofName?_name (h : Helper) : ofName? h.name = some h := by
  cases h <;> decide

theorem call_fromJson (h : Json.parse? text = some v) :
    call vars .fromJson [.text text] = pure (Value.ofJson v) := by
  have htext : Take.text [.text text] = .ok (text, []) := rfl
  have hread : jsonValue [.text text] = .ok (Value.ofJson v, []) := by
    rw [jsonValue, bind_of_eq_ok htext, h]
    rfl
  change Eval.lift (Except.bind (jsonValue [.text text]) _) = _
  rw [hread]
  rfl

theorem call_toJson (v : Value) :
    call vars .toJson [v] = pure (.text v.toJson.sorted.compact) := rfl

/-- Texts that denote the two greatest numbers of 64 bits are read as one value. -/
theorem fromJson_greatest_eq :
    call vars .fromJson [.text (Json.num (.int 18446744073709551615)).compact] =
      call vars .fromJson [.text (Json.num (.int 18446744073709551614)).compact] := by
  have hread (n : Int) (hn : (Number.int n).Fits64) :
      Json.parse? (Json.num (.int n)).compact = some (.num (.int n)) :=
    Json.parse?_compact trivial trivial hn
  rw [call_fromJson vars (hread _ ⟨by decide, by decide⟩),
    call_fromJson vars (hread _ ⟨by decide, by decide⟩),
    Value.ofJson_greatest_eq]

end Helper

/-- What `to_json` writes for a text that `from_json` reads, if the numbers fit 64 bits with their
sign. -/
theorem compact_toJson_ofJson {text : String} {v : Json} (h : Json.parse? text = some v)
    (hnumbers : v.Numbers Number.FitsSigned) :
    (Value.ofJson v).toJson.sorted.compact = v.compact := by
  have hordered : v.Ordered := (Json.parse?_eq_some h).1
  rw [Value.toJson_ofJson v hnumbers, Json.sorted_of_ordered v hordered,
    Json.sorted_of_ordered v hordered]

/-! ## §2 Calls in templates -/

/-- What is read from a document is neither a scope nor a loop. -/
theorem settleAll_ofJson (v : Json) : settleAll [Value.ofJson v] = pure [Value.ofJson v] := by
  cases v with
  | num n =>
    cases n with
    | int n =>
      rw [Value.ofJson, Value.ofNumber]
      split <;> rfl
    | float x => rfl
  | _ => rfl

/-- A template can call what every file can call, and a call goes down one level. -/
structure CallsHelpers (vars : Dict String) (s : Scene Progress) : Prop where
  listed (h : Helper) : s.env.functions.contains h.name = true
  answers (calls : Calls Progress) (h : Helper) (args : List Value) :
    s.env.call calls h.name args = h.call vars args
  descends : ∃ calls, s.calls.call = callAny s.env calls

/-- So can the files of a project, wherever they find templates. -/
theorem callsHelpers_environment (e : Evaluator) (functions : List String) (capturing : Bool)
    (call : Calls Progress → String → List Value → Host Value)
    (load : String → Except Cause (Option String)) (levels : Nat) (file : String) :
    CallsHelpers e.options.vars
      { env := { e.environment functions capturing call with load }
        calls := callsOf { e.environment functions capturing call with load } (levels + 1)
        file } where
  listed h := by
    have hall : (Helper.all.map Helper.name).contains h.name = true := by cases h <;> decide
    change (Helper.all.map Helper.name ++ functions).contains h.name = true
    rw [List.contains_append, hall, Bool.true_or]
  answers calls h args := by
    dsimp only [Evaluator.environment]
    rw [Helper.ofName?_name]
  descends := ⟨_, rfl⟩

section

variable {vars : Dict String} {s : Scene Progress} {frames : List Frame} {inner : Expr}
  {steps : Nat} {change : Progress → Progress} {a b : Value}

/-- A name that no frame binds denotes the function. -/
theorem spends_lookUp (hs : CallsHelpers vars s) (h : Helper)
    (hunbound : ∀ cells, Eval.inFrames h.name cells frames = none) :
    Eval.Spends frames (Eval.ofStep (lookUp s.env h.name) : Host (Option Value)) 0 "" id
      (some (.function h.name)) := by
  refine .of_eq_ok fun m hm _ => ?_
  subst hm
  have hlisted : (Builtin.names.contains h.name || s.env.functions.contains h.name) = true := by
    rw [hs.listed h, Bool.or_true]
  have hfound : lookUp s.env h.name m.toMemory = .ok (some (.function h.name), m.toMemory) := by
    have hget : (get : Template.Step Memory) m.toMemory = .ok (m.toMemory, m.toMemory) := rfl
    rw [lookUp, bind_of_eq_ok hget, hunbound]
    dsimp only
    rw [if_pos hlisted]
    rfl
  rw [Eval.ofStep, hfound, Output.write_empty]
  rfl

/-- The name of a helper is no name of a builtin, so that the environment is asked. -/
theorem spends_call (hs : CallsHelpers vars s) (h : Helper) (hsettled : settleAll [a] = pure [a])
    (hcall : h.call vars [a] = pure b) :
    Eval.Spends frames (s.calls.call (.function h.name) [a]) 0 "" id b := by
  obtain ⟨calls, hcalls⟩ := hs.descends
  have hbuiltin : ¬ Builtin.names.contains h.name = true := by cases h <;> decide
  refine .of_eq_ok fun m _ _ => ?_
  rw [hcalls, Output.write_empty]
  change (Eval.ofStep (settleAll [a]) >>= fun args => if Builtin.names.contains h.name then
    Builtin.call h.name args else s.env.call calls h.name args) m = _
  rw [hsettled]
  change (if Builtin.names.contains h.name then Builtin.call h.name [a]
    else s.env.call calls h.name [a]) m = _
  rw [if_neg hbuiltin, hs.answers, hcall]
  rfl

/-- Nor has the name a meaning of its own in calls. -/
theorem spends_callNamed (hs : CallsHelpers vars s) (h : Helper)
    (hunbound : ∀ cells, Eval.inFrames h.name cells frames = none)
    (hsettled : settleAll [a] = pure [a]) (hcall : h.call vars [a] = pure b) :
    Eval.Spends frames (callNamed s h.name [a]) 0 "" id b := by
  have hsuper : h.name ≠ "super" := by cases h <;> decide
  unfold callNamed
  rw [if_neg hsuper]
  exact .congr (.bind (spends_lookUp hs h hunbound) (spends_call hs h hsettled hcall)) rfl rfl rfl

/-- A call of a function with one argument takes one step more than the argument. -/
theorem spends_callName (hs : CallsHelpers vars s) (h : Helper) (line : Nat)
    (hunbound : ∀ cells, Eval.inFrames h.name cells frames = none)
    (hinner : Eval.Spends frames (eval s inner) steps "" change a)
    (hsettled : settleAll [a] = pure [a]) (hcall : h.call vars [a] = pure b) :
    Eval.Spends frames (eval s (.callName line h.name [(.plain, inner)])) (steps + 1) "" change
      b := by
  have hargs : Eval.Spends frames (evalArgs s [(.plain, inner)]) steps "" change [a] :=
    .congr (.bind (.congr (.bind hinner (.bind (.pure []) (.pure _))) rfl rfl rfl) (.pure _)) rfl
      rfl rfl
  have hline := (spends_callNamed hs h hunbound hsettled hcall).located s.file line
  exact .congr (.bind (.burn 1) (.bind hargs hline)) (by omega) rfl rfl

/-- `to_json(from_json(text))` is a text that denotes what `text` denotes, if the numbers fit 64
bits with their sign. -/
theorem spends_toJson_fromJson (hs : CallsHelpers vars s) (line line' : Nat)
    (hto : ∀ cells, Eval.inFrames Helper.toJson.name cells frames = none)
    (hfrom : ∀ cells, Eval.inFrames Helper.fromJson.name cells frames = none)
    {text : String} {v : Json} (hparse : Json.parse? text = some v)
    (hnumbers : v.Numbers Number.FitsSigned)
    (hinner : Eval.Spends frames (eval s inner) steps "" change (.text text)) :
    ∃ written, Json.parse? written = some v ∧
      Eval.Spends frames
        (eval s (.callName line Helper.toJson.name
          [(.plain, .callName line' Helper.fromJson.name [(.plain, inner)])]))
        (steps + 2) "" change (.text written) := by
  have hread : Eval.Spends frames
      (eval s (.callName line' Helper.fromJson.name [(.plain, inner)])) (steps + 1) "" change
      (Value.ofJson v) :=
    spends_callName hs .fromJson line' hfrom hinner rfl (Helper.call_fromJson vars hparse)
  -- What is written is the compact text of the document that was read.
  have hwrite : Helper.call vars .toJson [Value.ofJson v] = pure (.text v.compact) := by
    rw [Helper.call_toJson, compact_toJson_ofJson hparse hnumbers]
  have hfits : v.Numbers Number.Fits64 :=
    Json.Numbers.mono (fun _ => Number.FitsSigned.fits64) v hnumbers
  exact ⟨v.compact, Json.parse?_compact_of_parse? hparse hfits,
    spends_callName hs .toJson line hto hread (settleAll_ofJson v) hwrite⟩

end

end SqlWorkflow.Evaluation
