import SqlWorkflow.Evaluation.Run
import SqlWorkflow.Proofs.Template.Fuel
import SqlWorkflow.Proofs.Template.Literals

/-!
# Evaluating the template of an action without code

Such a template looks up one literal after the other and captures those of each part.  Nothing in
it depends on what the literals are, so neither does the number of steps that it takes.

- **§1** The literals of one part.
- **§2** All parts, and the steps that they take (`templateSteps`).
- **§3** With that much fuel the template captures the literals of each part
  (`runTemplate_of_le`), and with less it fails (`runTemplate_outOfFuel`).
-/

namespace SqlWorkflow.Evaluation

open Template

/-! ## §1 One part -/

/-- The frame of a template that is given a table of literals. -/
def literalFrames (literals : List String) : List Frame :=
  [{ base := .values [(Sql.Piece.literalsName, .list (literals.map .text))] }]

section

variable {σ : Type} {literals : List String}

/-- The literal at a number, which has to fit into a machine word. -/
theorem itemOf_literals {i : Nat} (hi : i < literals.length)
    (hwords : literals.length ≤ Nat.pow 2 63) :
    (Value.list (literals.map .text)).itemOf (.int i) = .ok (.text literals[i]) := by
  have hword : (Value.int i).word? = some (i : Int) := by
    have hlt : i < 2 ^ 63 := Nat.lt_of_lt_of_le hi hwords
    have hisWord : Value.isWord i = true := by
      simp only [Value.isWord, Bool.and_eq_true, decide_eq_true_eq]
      change -((2 ^ 63 : Nat) : Int) ≤ i ∧ (i : Int) < ((2 ^ 63 : Nat) : Int)
      omega
    have hisWide : Value.isWide i = true := by
      simp only [Value.isWide, Bool.and_eq_true, decide_eq_true_eq]
      change -((2 ^ 127 : Nat) : Int) ≤ i ∧ (i : Int) < ((2 ^ 127 : Nat) : Int)
      omega
    simp [Value.word?, Value.int?, hisWord, hisWide]
  have hposition : Value.position? (literals.map Value.text).length i = some i := by
    simp [Value.position?]
  simp only [Value.itemOf, Value.find?, hword, Option.bind_some, hposition]
  simp [hi]

/-- One literal. -/
theorem spends_literal (s : Scene σ) {i : Nat} (hi : i < literals.length)
    (hwords : literals.length ≤ Nat.pow 2 63) (line : Nat) :
    Eval.Spends (literalFrames literals)
      (exec s (.emit (.item line (.name Sql.Piece.literalsName) (.literal (.int i))))) 4
      literals[i] id () := by
  have hname : Eval.Spends (literalFrames literals) (eval s (.name Sql.Piece.literalsName)) 1 "" id
      (.list (literals.map .text)) := by
    have hfound : Eval.Spends (literalFrames literals)
        (do return (← Eval.ofStep (lookUp s.env Sql.Piece.literalsName)).getD .undefined :
          Eval σ Value) 0 "" id (.list (literals.map .text)) := .of_eq_ok fun m hm _ => by
      obtain ⟨⟨frames⟩, host⟩ := m
      subst hm
      rw [Output.write_empty]
      rfl
    exact .congr (.bind (.burn 1) hfound) rfl rfl rfl
  have hkey : Eval.Spends (literalFrames literals) (eval s (.literal (.int i))) 1 "" id (.int i) :=
    .congr (.bind (.burn 1) (.pure _)) rfl rfl rfl
  have hitem : Eval.Spends (literalFrames literals)
      (s.onLine line (Eval.ofStep (Template.itemOf (.list (literals.map .text)) (.int i)))) 0 "" id
      (.text literals[i]) := by
    refine .located (.of_eq_ok fun m _ _ => ?_) _ _
    have hstep : Template.itemOf (.list (literals.map .text)) (.int i) =
        (pure (.text literals[i]) : Template.Step Value) := by
      simp only [Template.itemOf, Eval.settle, pure_bind, itemOf_literals hi hwords]
      rfl
    rw [Output.write_empty, hstep]
    rfl
  have hvalue : Eval.Spends (literalFrames literals)
      (eval s (.item line (.name Sql.Piece.literalsName) (.literal (.int i)))) 3 "" id
      (.text literals[i]) :=
    .congr (.bind (.burn 1) (.bind hname (.bind hkey hitem))) rfl rfl rfl
  exact .congr (.bind (.burn 1) (.bind hvalue (.emit literals[i]))) rfl (by simp) rfl

/-- The literals of a part, which stand one after the other in the table. -/
theorem spends_literals (s : Scene σ) (hwords : literals.length ≤ Nat.pow 2 63) (line : Nat)
    (after mine : List String) :
    ∀ before : List String, literals = before ++ mine ++ after →
      Eval.Spends (literalFrames literals) (execAll s (literalStmts line before.length mine.length))
        (4 * mine.length) (String.join mine) id () := by
  induction mine with
  | nil => exact fun _ _ => .pure _
  | cons sql mine ih =>
    intro before hliterals
    -- The next literal stands after those before it, and is one of them for the rest.
    have hfirst : literals[before.length]? = some sql := by
      simp [hliterals]
    obtain ⟨hlength, hsql⟩ := List.getElem?_eq_some_iff.1 hfirst
    have hrest := ih (before ++ [sql]) (by simp [hliterals])
    rw [List.length_append] at hrest
    have hemit := spends_literal s hlength hwords line
    rw [hsql] at hemit
    rw [String.join_cons]
    exact .congr (.bind hemit hrest) (by simp; omega) rfl rfl

end

/-! ## §2 All parts -/

/-- What a part leaves behind. -/
def captured (part : Sql.PartBody) : Sql.Part × String :=
  (part.part, Text.trim (String.join (Sql.Piece.literals part.pieces)))

variable {s : Scene Progress} {literals : List String}

theorem spends_capturePart (frames : List Frame) (text : String) (part : Sql.Part) :
    Eval.Spends frames (Evaluator.capturePart [.text text, .text part.name]) 0 ""
      (fun p => { p with parts := p.parts ++ [(part, Text.trim text)] }) nothing := by
  let capture (p : Progress) : Progress := { p with parts := p.parts ++ [(part, Text.trim text)] }
  have hadvance : Eval.Spends frames (Host.advance capture) 0 "" capture () := .modify capture
  cases part
  all_goals exact .congr (.bind (.pure _) (.bind hadvance (.pure _))) rfl rfl rfl

/-- The filter of a part. -/
theorem spends_section
    (hfilter : s.env.filter? Sql.PartBody.filterName = some Evaluator.capturePart)
    (hwords : literals.length ≤ Nat.pow 2 63) (line : Nat) (part : Sql.PartBody)
    {before after : List String}
    (hliterals : literals = before ++ Sql.Piece.literals part.pieces ++ after) :
    Eval.Spends (literalFrames literals) (exec s (sectionStmt line before.length part))
      (4 * (Sql.Piece.literals part.pieces).length + 2) ""
      (fun p => { p with parts := p.parts ++ [captured part] }) () := by
  let text := String.join (Sql.Piece.literals part.pieces)
  have hbody := (spends_literals s hwords line after _ before hliterals).capturing
  have hname : Eval.Spends (literalFrames literals)
      (eval s (.literal (.text part.part.name))) 1 "" id (.text part.part.name) :=
    .congr (.bind (.burn 1) (.pure _)) rfl rfl rfl
  have hargs : Eval.Spends (literalFrames literals)
      (evalArgs s [(.plain, .literal (.text part.part.name))]) 1 "" id [.text part.part.name] :=
    .congr (.bind (.bind hname (.bind (.pure _) (.pure _))) (.pure _)) rfl rfl rfl
  have hfiltered : Eval.Spends (literalFrames literals)
      (s.onLine line (applyFilter s.env Sql.PartBody.filterName
        [.text text, .text part.part.name])) 0 ""
      (fun p => { p with parts := p.parts ++ [captured part] }) nothing := by
    -- The filters of the environment come before those of the language.
    have hcapture : applyFilter s.env Sql.PartBody.filterName
        [.text text, .text part.part.name] =
        Evaluator.capturePart [.text text, .text part.part.name] := by
      unfold applyFilter filterBy
      simp only [List.length_cons, hfilter]
    rw [hcapture]
    exact .located (spends_capturePart _ text part.part) _ _
  have hfilters : Eval.Spends (literalFrames literals)
      (applyFilters s (.text text)
        [⟨line, Sql.PartBody.filterName, [(.plain, .literal (.text part.part.name))]⟩]) 2 ""
      (fun p => { p with parts := p.parts ++ [captured part] }) nothing :=
    .congr (.bind (.burn 1) (.bind hargs (.bind hfiltered (.pure _)))) rfl rfl rfl
  exact .congr (.bind hbody (.bind hfilters (.emit ""))) rfl rfl rfl

/-- The steps that the template of parts without code takes: four for each literal, two for the
filter of each part, and one for each line end between two parts. -/
def templateSteps : List Sql.PartBody → Nat
  | [] => 0
  | [part] => 4 * (Sql.Piece.literals part.pieces).length + 2
  | part :: rest => 4 * (Sql.Piece.literals part.pieces).length + 3 + templateSteps rest

theorem templateSteps_cons (part next : Sql.PartBody) (rest : List Sql.PartBody) :
    templateSteps (part :: next :: rest) =
      4 * (Sql.Piece.literals part.pieces).length + 3 + templateSteps (next :: rest) := rfl

/-- Parts of at most one literal take at most seven steps each. -/
theorem templateSteps_le {parts : List Sql.PartBody}
    (h : ∀ part ∈ parts, (Sql.Piece.literals part.pieces).length ≤ 1) :
    templateSteps parts ≤ 7 * parts.length := by
  induction parts with
  | nil => exact Nat.le_refl 0
  | cons part rest ih =>
    have hpart := h part List.mem_cons_self
    have hrest := ih fun part hp => h part (List.mem_cons_of_mem _ hp)
    cases rest with
    | nil =>
      simp only [templateSteps, List.length_cons, List.length_nil]
      omega
    | cons next rest =>
      rw [templateSteps_cons, List.length_cons]
      omega

theorem length_flatMap_literals_le {parts : List Sql.PartBody}
    (h : ∀ part ∈ parts, (Sql.Piece.literals part.pieces).length ≤ 1) :
    (parts.flatMap fun part => Sql.Piece.literals part.pieces).length ≤ parts.length := by
  induction parts with
  | nil => exact Nat.le_refl 0
  | cons part rest ih =>
    have hpart := h part List.mem_cons_self
    have hrest := ih fun part hp => h part (List.mem_cons_of_mem _ hp)
    rw [List.flatMap_cons, List.length_append, List.length_cons]
    omega

/-- All parts but the last one take at least three steps each. -/
theorem le_templateSteps (parts : List Sql.PartBody) :
    3 * parts.length ≤ templateSteps parts + 1 := by
  induction parts with
  | nil => exact Nat.zero_le 1
  | cons part rest ih =>
    cases rest with
    | nil =>
      simp only [templateSteps, List.length_cons, List.length_nil]
      omega
    | cons next rest =>
      rw [templateSteps_cons, List.length_cons]
      omega

/-- The template of parts without code captures the literals of each part. -/
theorem spends_sections
    (hfilter : s.env.filter? Sql.PartBody.filterName = some Evaluator.capturePart)
    (hwords : literals.length ≤ Nat.pow 2 63) (parts : List Sql.PartBody) :
    ∀ line (before : List String),
      literals = before ++ parts.flatMap (fun part => Sql.Piece.literals part.pieces) →
      ∃ text, Eval.Spends (literalFrames literals)
        (execAll s (sectionsStmts line before.length parts)) (templateSteps parts) text
        (fun p => { p with parts := p.parts ++ parts.map captured }) () := by
  induction parts with
  | nil =>
    intro _ _ _
    exact ⟨"", .congr (.pure _) rfl rfl (by funext p; simp)⟩
  | cons part rest ih =>
    intro line before hliterals
    rw [List.flatMap_cons, ← List.append_assoc] at hliterals
    have hpart := spends_section hfilter hwords line part hliterals
    cases rest with
    | nil => exact ⟨_, .congr (.bind hpart (.pure _)) rfl rfl rfl⟩
    | cons next rest =>
      obtain ⟨text, hrest⟩ := ih (line + 1) (before ++ Sql.Piece.literals part.pieces) hliterals
      rw [List.length_append] at hrest
      -- The line break between two parts is a statement too.
      have hline : Eval.Spends (literalFrames literals) (exec s (.raw "\n")) 1 "\n" id () :=
        .congr (.bind (.burn 1) (.write "\n")) rfl rfl rfl
      refine ⟨_, .congr (.bind hpart (.bind hline hrest)) ?_ rfl ?_⟩
      · rw [templateSteps_cons]
        omega
      · funext p
        simp

/-! ## §3 Runs of such templates -/

namespace Evaluator

variable {e : Evaluator} {program : Sql.ActionProgram}

theorem source_of_literals (himports : e.imports = []) (hcode : program.codeBlocks = []) :
    e.prelude ++ program.template = Sql.PartBody.templateAll 0 program.parts := by
  rw [prelude, himports, Sql.ActionProgram.template, Sql.ActionProgram.codeLines, hcode]
  simp

theorem spends_template (e : Evaluator) (hwords : program.literals.length ≤ Nat.pow 2 63)
    (s : Scene Progress)
    (hfilter : s.env.filter? = e.actionEnvironment.filter?) :
    ∃ text, Eval.Spends [{ base := .values (literalValues program) }]
      (execAll s (sectionsStmts 1 0 program.parts)) (templateSteps program.parts) text
      (fun p => { p with parts := p.parts ++ program.parts.map captured }) () :=
  spends_sections (by rw [hfilter]; rfl) hwords program.parts 1 [] rfl

/-- With enough fuel, a template without code captures the literals of each part. -/
theorem runTemplate_of_le (himports : e.imports = []) (hcode : program.codeBlocks = [])
    (hliterals : HoldsLiterals program.parts) (hwords : program.literals.length ≤ Nat.pow 2 63)
    (hfuel : ∀ fuel ∈ e.options.fuel, templateSteps program.parts ≤ fuel) (start : Progress) :
    e.runTemplate e.actionEnvironment program start =
      .ok { start with parts := start.parts ++ program.parts.map captured } := by
  have hread := read_templateAll program.filePath hliterals (Nat.le_trans hwords (by decide))
  obtain ⟨text, hrender⟩ := exists_render_eq_ok hread (spends_template e hwords) hfuel start
  rw [runTemplate, source_of_literals himports hcode, run]
  simp only [Engine.own, hrender]

/-- With less it fails as a whole. -/
theorem runTemplate_outOfFuel (himports : e.imports = []) (hcode : program.codeBlocks = [])
    (hliterals : HoldsLiterals program.parts) (hwords : program.literals.length ≤ Nat.pow 2 63)
    (hfuel : ∃ fuel ∈ e.options.fuel, fuel < templateSteps program.parts) (start : Progress) :
    e.runTemplate e.actionEnvironment program start =
      .error (.template { cause := .outOfFuel }) := by
  have hread := read_templateAll program.filePath hliterals (Nat.le_trans hwords (by decide))
  have hrender := render_outOfFuel hread (spends_template e hwords) hfuel start
  rw [runTemplate, source_of_literals himports hcode, run]
  simp only [Engine.own, hrender]

end Evaluator

end SqlWorkflow.Evaluation
