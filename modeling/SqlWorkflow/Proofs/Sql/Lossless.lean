import SqlWorkflow.Sql.Lexer
import Mathlib.Tactic.Common

/-!
# Nothing is lost when a definition file is read

Reading a definition file keeps every character of it: if a tree is made of a file at all, then
writing out the tree gives the file back (`source_of_lex`).  So a tree stands for one file only
(`eq_of_lex_eq`).

Every scan splits the text in front of it into what it makes a node of and what it leaves to the
scans after it; the scans of `SqlWorkflow.Sql.Lexer` come with one such law each, and the law of
the scan of a whole file is what is used here.
-/

namespace SqlWorkflow.Sql

variable {dialect dialect' : Dialect} {source source' : String} {tree : Tree}

/-- A tree that was read from a file is made of the nodes that a scan of the file found. -/
theorem scanFile_of_lex (h : lex dialect source = .ok tree) :
    scanFile dialect none source.toList = .ok tree.nodes ∧ tree.dialect = dialect := by
  unfold lex at h
  split at h
  · next nodes hscan =>
    cases h
    exact ⟨hscan, rfl⟩
  · cases h

/-- The characters of the nodes, in order, are those of the file. -/
theorem flatMap_source_of_lex (h : lex dialect source = .ok tree) :
    tree.nodes.flatMap Node.source = source.toList :=
  source_scanFile (scanFile_of_lex h).1

/-- A tree belongs to one file and one dialect. -/
theorem eq_of_lex_eq (h : lex dialect source = .ok tree) (h' : lex dialect' source' = .ok tree) :
    source = source' ∧ dialect = dialect' := by
  have hchars : source.toList = source'.toList := by
    rw [← flatMap_source_of_lex h, ← flatMap_source_of_lex h']
  exact ⟨String.toList_inj.1 hchars, (scanFile_of_lex h).2.symm.trans (scanFile_of_lex h').2⟩

/-- Writing out the tree of a file gives the file back, in either dialect. -/
theorem source_of_lex (h : lex dialect source = .ok tree) : tree.source = source := by
  unfold Tree.source
  rw [flatMap_source_of_lex h]
  exact String.ofList_toList

/-- A file of either dialect: quotes with a placeholder that holds a brace in quotes, separator
lines with blanks and a carriage return, code in comments; and sections of both sorts. -/
theorem source_of_lex_mixed :
    let plain := "SELECT 'it\\'s $\x7bf(\"\x7d\")\x7d'\r\n\t---\t\r\n/*JINJA x */ --jinja y\n-- end"
    let sectioned := "config \x7b a: '\x7d' \x7d\n" ++
      "input \"t\"\n\x7b SELECT `a` /* \x7d */\n--- \n\x7d"
    (∃ tree, lex .plain plain = .ok tree ∧ tree.nodes.length = 10 ∧ tree.source = plain) ∧
      ∃ tree, lex .sectioned sectioned = .ok tree ∧ tree.nodes.length = 3 ∧
        tree.source = sectioned := by
  intro plain sectioned
  have hplain : lex .plain plain = .ok ⟨.plain,
      [ .fragment (.text "SELECT "),
        .fragment (.quoted [.text "'it\\'s ", .placeholder "f(\"\x7d\")", .text "'"]),
        .fragment (.text "\r\n"),
        .fragment (.separator "\t---\t"),
        .fragment (.text "\r\n"),
        .codeBlock "/*JINJA" " x " "*/",
        .fragment (.text " "),
        .codeBlock "--jinja" " y" "",
        .fragment (.text "\n"),
        .fragment (.comment "-- end") ]⟩ := by decide +kernel
  have hsectioned : lex .sectioned sectioned = .ok ⟨.sectioned,
      [ .braced (.code .config) "config \x7b" (.code " a: '\x7d' "),
        .fragment (.text "\n"),
        .braced (.sql .input) "input \"t\"\n\x7b"
          (.sql [ .text " SELECT ", .quoted [.text "`a`"], .text " ", .comment "/* \x7d */",
            .text "\n", .separator "--- ", .text "\n" ]) ]⟩ := by decide +kernel
  exact ⟨⟨_, hplain, rfl, source_of_lex hplain⟩, ⟨_, hsectioned, rfl, source_of_lex hsectioned⟩⟩

end SqlWorkflow.Sql
