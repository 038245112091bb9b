import SqlWorkflow.Evaluation.Run
import SqlWorkflow.Proofs.Template.Reading
import SqlWorkflow.Proofs.Template.Tokens

/-!
# Includes whose names are numbers

The prelude of every definition imports each include under a name made from its file name.  Nothing
can be bound to a number, so that with an include that is named after one every definition of the
project fails, whether it uses the include or not (`evaluate_of_number`).  If nothing else is wrong
with the definition, the failure is a panic (`evaluate_addImport_year`).

- **§1** The tokens of an import under a number.
- **§2** A template that starts with them cannot be run.
- **§3** Nor can any definition, because the prelude comes first in it.
-/

namespace SqlWorkflow.Template

namespace Token

open Cursor

/-! ## §1 The tokens of an import -/

/-- The tag that imports a template under a number. -/
def importTag (path : String) (n : Nat) : String :=
  "\x7b%- import \"" ++ path ++ "\" as " ++ toString n ++ " -%\x7d"

theorem toList_importTag (path : String) (n : Nat) :
    (importTag path n).toList = "\x7b%- import \"".toList ++
      (path.toList ++ ("\" as ".toList ++ ((toString n).toList ++ " -%\x7d".toList))) := by
  change (_ ++ path ++ _ ++ toString n ++ " -%\x7d").toList = _
  simp only [String.toList_append, List.append_assoc]

theorem getLast?_importTag (path : String) (n : Nat) :
    (importTag path n).toList.getLast? = some '\x7d' := by
  change (_ ++ " -%\x7d").toList.getLast? = _
  rw [String.toList_append, List.getLast?_append]
  rfl

/-- A text without quotes and backslashes ends at the quote after it. -/
theorem untilQuote_eq_some {text : List Char} (h : ∀ c ∈ text, c ≠ '"' ∧ c ≠ '\\')
    (rest : List Char) : untilQuote '"' (text ++ '"' :: rest) = some (text, rest) := by
  induction text with
  | nil => rfl
  | cons c text ih =>
    have hc := h c List.mem_cons_self
    rw [List.cons_append, untilQuote]
    · rw [if_neg hc.1, ih fun d hd => h d (List.mem_cons_of_mem _ hd)]
      rfl
    · intro d cs heq
      exact absurd heq hc.2

/-- Such a text stands for itself. -/
theorem unescape_eq_some {text : List Char} (h : ∀ c ∈ text, c ≠ '"' ∧ c ≠ '\\') :
    unescape text.length text = some text := by
  induction text with
  | nil => rfl
  | cons c text ih =>
    have hc := (h c List.mem_cons_self).2
    have hrest := ih fun d hd => h d (List.mem_cons_of_mem _ hd)
    simp only [List.length_cons, unescape, if_neg hc, hrest, Option.map_some]

theorem reads_text {text : List Char} (h : ∀ c ∈ text, c ≠ '"' ∧ c ≠ '\\') (kind : TagKind)
    (L L' : Nat) (rest : List Char) :
    Reads ⟨.inside kind 0, L, L', '"' :: (text ++ '"' :: rest)⟩
      [⟨.text (String.ofList text), L⟩] ⟨.inside kind 0, L + text.count '\n', L, rest⟩ := by
  have hscan : scan '"' (text ++ '"' :: rest) =
      (.text (String.ofList text), text.count '\n', rest) := by
    have hsign : sign? ('"' :: (text ++ '"' :: rest)) = none := rfl
    simp only [scan, hsign, untilQuote_eq_some h, unescape_eq_some h]
    rfl
  have hclosing : closing? kind ('"' :: (text ++ '"' :: rest)) = none := by
    cases kind <;> rfl
  have hspace : isSpace '"' = false := rfl
  refine .of_step ?_ (by simp; omega)
  simp only [step, stepInside, hspace, Bool.false_eq_true, if_false, if_true, hclosing, hscan]
  rfl

/-- The tokens of the tag.  Line breaks in the path count for what comes after it. -/
theorem reads_importTag {path : String} (h : ∀ c ∈ path.toList, c ≠ '"' ∧ c ≠ '\\') {n : Nat}
    (hn : n < wholeLimit) (L L' : Nat) (rest : List Char) :
    ∃ line, Reads ⟨.outside false, L, L', (importTag path n).toList ++ rest⟩
      [⟨.openTag, L⟩, ⟨.word "import", L⟩, ⟨.text path, L⟩, ⟨.word "as", line⟩, ⟨.int n, line⟩,
        ⟨.closeTag, line⟩]
      ⟨.outside true, line, line, rest⟩ := by
  have hopen (rest : List Char) : Reads
      ⟨.outside false, L, L', "\x7b%- import \"".toList ++ rest⟩
      [⟨.openTag, L⟩, ⟨.word "import", L⟩] ⟨.inside .tag 0, L, L, '"' :: rest⟩ :=
    ⟨4, by simp; omega, fun _ => rfl⟩
  have has (line : Nat) (rest : List Char) :
      Reads ⟨.inside .tag 0, line, L, " as ".toList ++ rest⟩
        [⟨.word "as", line⟩] ⟨.inside .tag 0, line, line, ' ' :: rest⟩ :=
    ⟨2, by simp; omega, fun _ => rfl⟩
  -- The digits come right after the blank.
  have hblank (line : Nat) (rest : List Char) :
      Reads ⟨.inside .tag 0, line, line, ' ' :: ((toString n).toList ++ rest)⟩ []
        ⟨.inside .tag 0, line, line, (toString n).toList ++ rest⟩ := by
    refine .of_step ?_ (Nat.lt_succ_self _)
    obtain ⟨d, ds, hdigits, hd⟩ := exists_digit_cons n
    have hspace : isSpace ' ' = true := rfl
    rw [hdigits]
    simp [step, stepInside, hspace, isSpace_digit hd, moveTo]
  have hnumber (line : Nat) (rest : List Char) := reads_number hn .tag 0 line line
    (show endsNumber ' ' = true from rfl) ("-%\x7d".toList ++ rest)
  have hclose (line : Nat) (rest : List Char) :
      Reads ⟨.inside .tag 0, line, line, " -%\x7d".toList ++ rest⟩ [⟨.closeTag, line⟩]
        ⟨.outside true, line, line, rest⟩ :=
    ⟨2, by simp; omega, fun _ => rfl⟩
  have hpath (rest : List Char) : Reads
      ⟨.inside .tag 0, L, L, '"' :: (path.toList ++ '"' :: rest)⟩ [⟨.text path, L⟩]
      ⟨.inside .tag 0, L + path.toList.count '\n', L, rest⟩ := by
    have htext := reads_text h .tag L L rest
    rwa [String.ofList_toList] at htext
  rw [toList_importTag]
  simp only [List.append_assoc]
  exact ⟨_, (hopen _).trans ((hpath _).trans ((has _ _).trans ((hblank _ _).trans
    ((hnumber _ _).trans (hclose _ _)))))⟩

/-- Only what follows the last other character can be dropped. -/
theorem exists_withoutLastBreak_append {cs : List Char} {c : Char} (hlast : cs.getLast? = some c)
    (hc : c ≠ '\n' ∧ c ≠ '\r') (rest : List Char) :
    ∃ rest', withoutLastBreak (cs ++ rest) = cs ++ rest' := by
  have hdrop (tail : List Char) {b : Char} (hb : (cs ++ tail).getLast? = some b) (hne : b ≠ c) :
      (cs ++ tail).dropLast = cs ++ tail.dropLast := by
    refine List.dropLast_append_of_ne_nil fun htail => hne ?_
    rw [htail, List.append_nil, hlast] at hb
    exact (Option.some.inj hb).symm
  unfold withoutLastBreak
  split
  · next h =>
    rw [hdrop rest h hc.1.symm]
    dsimp only
    split
    · next h' => exact ⟨_, hdrop rest.dropLast h' hc.2.symm⟩
    · exact ⟨_, rfl⟩
  · next h => exact ⟨_, hdrop rest h hc.2.symm⟩
  · exact ⟨rest, rfl⟩

/-- The first tokens of a template that starts with an import under a number. -/
theorem ofTemplate_importTag {path : String} (hpath : ∀ c ∈ path.toList, c ≠ '"' ∧ c ≠ '\\')
    {n : Nat} (hn : n < wholeLimit) (rest : String) :
    ∃ line more, ofTemplate (importTag path n ++ rest) =
      ⟨.openTag, 1⟩ :: ⟨.word "import", 1⟩ :: ⟨.text path, 1⟩ :: ⟨.word "as", line⟩ ::
        ⟨.int n, line⟩ :: ⟨.closeTag, line⟩ :: more := by
  obtain ⟨rest', hrest⟩ :=
    exists_withoutLastBreak_append (getLast?_importTag path n) (by decide) rest.toList
  obtain ⟨line, hreads⟩ := reads_importTag hpath hn 1 1 rest'
  obtain ⟨fuel, -, htokens⟩ := hreads.exists_tokens_eq
    (show ((importTag path n).toList ++ rest').length <
      2 * ((importTag path n).toList ++ rest').length + 1 by omega)
  rw [ofTemplate, String.toList_append, hrest]
  exact ⟨line, _, htokens⟩

end Token

/-! ## §2 Reading an import -/

namespace Reader

variable {more : List Token}

/-- The import is read, but it binds nothing. -/
theorem statement_import (fuel n : Nat) (path : String) (line : Nat) :
    statement (fuel + 1) 1 1 "import" (⟨.text path, 1⟩ :: ⟨.word "as", line⟩ :: ⟨.int n, line⟩ ::
        ⟨.closeTag, line⟩ :: more) =
      .ok (.importModule 1 (.literal (.text path)) .impossible, ⟨.closeTag, line⟩ :: more) := by
  let bound : List Token := ⟨.int n, line⟩ :: ⟨.closeTag, line⟩ :: more
  have hpath : expression 1 true (⟨.text path, 1⟩ :: ⟨.word "as", line⟩ :: bound) =
      .ok (⟨.literal (.text path), 1⟩, ⟨.word "as", line⟩ :: bound) :=
    fuelled_eq_ok 21 (by simp only [List.length_cons]; omega)
      fun _ => expr_text (by decide) rfl path 1
  have has : expectWord "as" (⟨.word "as", line⟩ :: bound) = .ok ((), bound) := rfl
  have hnumber : expression 1 true bound =
      .ok (⟨.literal (.int n), line⟩, ⟨.closeTag, line⟩ :: more) :=
    fuelled_eq_ok 19 (by omega) fun _ => expr_int (by decide) rfl n line
  have hmark : contextMark (⟨.closeTag, line⟩ :: more) = .ok ((), ⟨.closeTag, line⟩ :: more) := rfl
  unfold statement
  refine (bind_of_eq_ok hpath).trans ((bind_of_eq_ok has).trans ?_)
  refine (bind_of_eq_ok line_eq_ok).trans ?_
  exact (bind_of_eq_ok hnumber).trans (bind_of_eq_ok hmark)

end Reader

theorem any_bindsNothing_import (line : Nat) (template : Expr) (stmts : List Stmt) :
    (allStmts (.importModule line template .impossible :: stmts)).any Stmt.bindsNothing = true :=
  rfl

/-- A template cannot be run if it starts with an import under a number: the rest of it cannot be
read, or there is nothing to bind what is imported to. -/
theorem exists_read_eq_error (file : String) {path : String}
    (hpath : ∀ c ∈ path.toList, c ≠ '"' ∧ c ≠ '\\') {n : Nat} (hn : n < Token.wholeLimit)
    (rest : String) : ∃ fault, read file (Token.importTag path n ++ rest) = .error fault := by
  obtain ⟨line, more, htokens⟩ := Token.ofTemplate_importTag hpath hn rest
  have hbody (fuel : Nat) : Reader.body (fuel + 2) 0 [] (⟨.openTag, 1⟩ :: ⟨.word "import", 1⟩ ::
      ⟨.text path, 1⟩ :: ⟨.word "as", line⟩ :: ⟨.int n, line⟩ ::
      ⟨.closeTag, line⟩ :: more) = _ :=
    Reader.body_statement_eq_map List.not_mem_nil (by decide)
      (Reader.statement_import fuel n path line) 1
  rw [read, htokens, Reader.fuelled, hbody]
  rcases Reader.body _ 0 [] more with refusal | ⟨⟨stmts, last⟩, after⟩
  · exact ⟨_, rfl⟩
  · simp only [Except.map, any_bindsNothing_import, if_true]
    split <;> exact ⟨_, rfl⟩

end SqlWorkflow.Template

namespace SqlWorkflow.Evaluation

open Template

variable {e : Evaluator} {path : String} {more : List (String × String)} {n : Nat}

/-! ## §3 Definitions -/

/-- With an include, every definition starts with its import. -/
theorem exists_prelude_eq (himports : e.imports = (toString n, path) :: more) (source : String) :
    ∃ rest, e.prelude ++ source = Token.importTag path n ++ rest := by
  have hprelude :
      e.prelude = Token.importTag path n ++ "\n" ++ { e with imports := more }.prelude := by
    have hend : " -%\x7d\n" = " -%\x7d" ++ "\n" := by decide
    rw [Evaluator.prelude, himports, List.map_cons, String.join_cons]
    change _ ++ " -%\x7d\n" ++ _ = _
    rw [hend, ← String.append_assoc]
    rfl
  exact ⟨_, by rw [hprelude, String.append_assoc, String.append_assoc]⟩

theorem exists_run_prelude_eq_error (himports : e.imports = (toString n, path) :: more)
    (hpath : ∀ c ∈ path.toList, c ≠ '"' ∧ c ≠ '\\') (hn : n < Token.wholeLimit)
    (env : Environment Progress) (file source : String) (values : List (String × Value))
    (start : Progress) :
    ∃ error, e.run env file (e.prelude ++ source) values start = .error error := by
  obtain ⟨rest, hsource⟩ := exists_prelude_eq himports source
  obtain ⟨fault, hread⟩ := exists_read_eq_error file hpath hn rest
  rw [← hsource] at hread
  refine ⟨.template fault, ?_⟩
  simp only [Evaluator.run, Engine.own, render, hread]
  rfl

/-- If the name of the first include is a number, no definition can be evaluated, whatever it
holds. -/
theorem evaluate_of_number (himports : e.imports = (toString n, path) :: more)
    (hpath : ∀ c ∈ path.toList, c ≠ '"' ∧ c ≠ '\\') (hn : n < Token.wholeLimit)
    (program : Sql.Program) : ∃ error, e.evaluate program = .error error := by
  have hrun := exists_run_prelude_eq_error himports hpath hn
  rcases houtput : e.evaluate program with error | output
  · exact ⟨error, rfl⟩
  -- The prelude comes first in every template, so no run of one leads to an output.
  exfalso
  cases program with
  | script filePath source =>
    obtain ⟨error, hrun⟩ := hrun (e.scriptEnvironment filePath) filePath source [] {}
    rw [Evaluator.evaluate, Evaluator.runScript, hrun] at houtput
    cases houtput
  | action program =>
    have htemplate (env : Environment Progress) (start : Progress) :
        ∃ error, e.runTemplate env program start = .error error := hrun env _ _ _ start
    rw [Evaluator.evaluate] at houtput
    split at houtput
    · obtain ⟨draft, -, hrest⟩ := exists_of_bind_eq_ok houtput
      obtain ⟨error, herror⟩ := htemplate e.actionEnvironment { contexts := #[{ draft }] }
      rw [herror] at hrest
      cases hrest
    · obtain ⟨test, -, hrest⟩ := exists_of_bind_eq_ok houtput
      obtain ⟨error, herror⟩ := htemplate (e.plainEnvironment true) {}
      simp only [herror] at hrest
      split at hrest <;> obtain ⟨test, -, hrest⟩ := exists_of_bind_eq_ok hrest <;> cases hrest

/-- An include named after a year can be imported, but nothing can be evaluated next to it. -/
theorem evaluate_addImport_year :
    let text := "\x7b% macro hi(n) %\x7dhi \x7b\x7b n \x7d\x7d\x7b% endmacro %\x7d"
    let includes : FileTree := .folder [("2024.jinja", .file (.text text))]
    let disk : Disk := { root := .folder [("p", .folder [("includes", includes)])] }
    let e : Evaluator := { project := { disk, path := "/p" } }
    ∃ program error, Sql.compile "definitions/a.sql" "select 1" = .ok program ∧
      (e.probe "includes/2024.jinja" text).isOk = true ∧ (e.evaluate program).isOk = true ∧
      (e.addImport "includes/2024.jinja").2.evaluate program = .error error ∧
      error.panic? = some "bad assignment target" := by
  intro text includes disk e
  have h : (do
      let program ← (Sql.compile "definitions/a.sql" "select 1").toOption
      let panic ← match (e.addImport "includes/2024.jinja").2.evaluate program with
        | .error error => error.panic?
        | .ok _ => none
      return ((e.evaluate program).isOk, panic)) = some (true, "bad assignment target") := by
    decide +kernel
  obtain ⟨program, hcompile, h⟩ := exists_of_toOption_bind_eq_some h
  have hall : "includes/2024.jinja".toList.all (fun c => c != '"' && c != '\\') = true := by
    decide +kernel
  have hpath : ∀ c ∈ "includes/2024.jinja".toList, c ≠ '"' ∧ c ≠ '\\' := fun c hc => by
    simpa using List.all_eq_true.1 hall c hc
  have hname : (e.addImport "includes/2024.jinja").2.imports =
      [(toString 2024, "includes/2024.jinja")] := by decide +kernel
  obtain ⟨error, herror⟩ := evaluate_of_number hname hpath (by decide) program
  rw [herror] at h
  obtain ⟨panic, hpanic, h⟩ := Option.bind_eq_some_iff.1 h
  obtain ⟨hok, rfl⟩ := Prod.mk.inj (Option.some.inj h)
  exact ⟨program, error, hcompile, by decide +kernel, hok, herror, hpanic⟩

end SqlWorkflow.Evaluation
