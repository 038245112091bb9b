import SqlWorkflow.Proofs.Sql.Lossless
import Mathlib.Data.List.Chain
import Mathlib.Data.List.TakeWhile

/-!
# The normal form of definition files

What a definition file is cut into is in a normal form, on which everything after it relies
(`normal_of_lex`).  Literal text is cut as long as can be and holds nothing that would start a
fragment of another sort; quoted text starts and ends with one quote; comments that are left as
comments are not marked as code; separators stand on lines of their own.  So what stands inside
quotes, in a comment or in a placeholder never starts a code block, a section or a separator.

That code blocks and sections stand at the top of a file, and only placeholders inside quotes, is
said by the types of `Node`, `Fragment` and `QuotedPart` already.

- **§1** The leaves of a tree, and where they stand in the file.
- **§2** What the normal form is.
- **§3** to **§5** What each scan keeps of it, from runs of text to whole files.
- **§6** The normal form of a whole file.
-/

namespace SqlWorkflow.Sql

/-! ## §1 Leaves -/

/-- What a file is made of when its sections are laid open. -/
inductive Leaf where
  | fragment (f : Fragment)
  | codeBlock (opening code closing : String)
  /-- What opens a section, up to its brace. -/
  | sectionStart (keyword : Keyword) (s : String)
  /-- The code that a section holds. -/
  | sectionCode (s : String)
  /-- The brace that closes a section. -/
  | sectionEnd
  deriving DecidableEq, Repr

/-- The characters of a leaf. -/
def Leaf.source : Leaf → List Char
  | .fragment f => f.source
  | .codeBlock opening code closing => opening.toList ++ code.toList ++ closing.toList
  | .sectionStart _ s => s.toList
  | .sectionCode s => s.toList
  | .sectionEnd => ['\x7d']

/-- The leaves of the body of a section, in order. -/
def SectionBody.leaves : SectionBody → List Leaf
  | .code s => [.sectionCode s]
  | .sql fragments => fragments.map .fragment

/-- The leaves of a node, in order. -/
def Node.leaves : Node → List Leaf
  | .fragment f => [.fragment f]
  | .codeBlock opening code closing => [.codeBlock opening code closing]
  | .braced keyword opening body => .sectionStart keyword opening :: (body.leaves ++ [.sectionEnd])

/-- The leaves of a file, in order. -/
def Tree.leaves (t : Tree) : List Leaf := t.nodes.flatMap Node.leaves

/-- The leaf stands in the file directly after the given text. -/
def Tree.Stands (t : Tree) (before : List Char) (leaf : Leaf) : Prop :=
  ∃ done rest, t.leaves = done ++ leaf :: rest ∧ before = done.flatMap Leaf.source

theorem source_bodyLeaves (body : SectionBody) :
    body.leaves.flatMap Leaf.source = body.source := by
  cases body with
  | code s => simp [SectionBody.leaves, SectionBody.source, Leaf.source]
  | sql fragments => simp [SectionBody.leaves, SectionBody.source, List.flatMap_map, Leaf.source]

@[simp] theorem source_leaves (node : Node) : node.leaves.flatMap Leaf.source = node.source := by
  cases node with
  | fragment f => simp [Node.leaves, Node.source, Leaf.source]
  | codeBlock opening code closing => simp [Node.leaves, Node.source, Leaf.source]
  | braced keyword opening body =>
    rw [Node.leaves, List.flatMap_cons, List.flatMap_append, source_bodyLeaves]
    simp [Node.source, Leaf.source]

/-! ## §2 The normal form -/

/-- The characters that start and end quoted text. -/
def quotes : List Char := ['\'', '"', '`']

/-- What starts comments and placeholders. -/
def openers : List (List Char) := [['-', '-'], ['/', '*'], ['$', '\x7b']]

/-- Literal text outside quotes. -/
structure Literal (dialect : Dialect) (cs : List Char) : Prop where
  ne_nil : cs ≠ []
  quote : ∀ q ∈ quotes, q ∉ cs
  opener : ∀ o ∈ openers, ¬ o <:+: cs
  /-- Braces mean something in the sectioned dialect. -/
  brace : dialect = .sectioned → '\x7d' ∉ cs

/-- Is it text? -/
def QuotedPart.isText : QuotedPart → Bool
  | .text _ => true
  | .placeholder _ => false

/-- Quoted text: neighbouring texts are one, and the whole stands between two equal quotes. -/
structure Quotation (parts : List QuotedPart) : Prop where
  ne_nil : parts ≠ []
  text : ∀ s, .text s ∈ parts → s ≠ ""
  apart : parts.IsChain fun a b => ¬ (a.isText ∧ b.isText)
  quoted : ∃ q ∈ quotes, ∃ inner, parts.flatMap QuotedPart.source = q :: (inner ++ [q])

/-- A comment with the marker of code: the word, in letters of either case, and a blank. -/
def MarksCode (cs : List Char) : Prop :=
  ∃ o ∈ [['-', '-'], ['/', '*']], ∃ word blank rest, cs = o ++ (word ++ blank :: rest) ∧
    word.map Char.toLower = ['j', 'i', 'n', 'j', 'a'] ∧ Text.isBlank blank

/-- Three dashes with nothing around them but spaces and tabs. -/
def Dashes (cs : List Char) : Prop :=
  ∃ before after, cs = before ++ ['-', '-', '-'] ++ after ∧
    ∀ c ∈ before ++ after, c = ' ' ∨ c = '\t'

/-- The fragment is in normal form, apart from where it stands. -/
def Fragment.Normal (dialect : Dialect) : Fragment → Prop
  | .text s => Literal dialect s.toList
  | .quoted parts => Quotation parts
  | .comment s => dialect = .plain → ¬ MarksCode s.toList
  | .separator s => Dashes s.toList
  | .placeholder _ => True

/-- Is it literal text? -/
def Fragment.isText : Fragment → Bool
  | .text _ => true
  | _ => false

namespace Leaf

/-- Is it literal text? -/
def isText : Leaf → Bool
  | .fragment f => f.isText
  | _ => false

/-- Is what the leaf holds hidden from the scans for code blocks, sections and separators? -/
def isOpaque : Leaf → Bool
  | .fragment (.quoted _) | .fragment (.comment _) | .fragment (.placeholder _) => true
  | _ => false

/-- Does a code block or a section start here, or are two statements separated? -/
def isStructure : Leaf → Bool
  | .codeBlock _ _ _ | .sectionStart _ _ | .fragment (.separator _) => true
  | _ => false

theorem not_isStructure (leaf : Leaf) (h : leaf.isOpaque) : ¬ leaf.isStructure := by
  cases leaf with
  | fragment f =>
    cases f with
    | quoted | comment | placeholder => exact Bool.false_ne_true
    | text | separator => cases h
  | _ => cases h

/-- The leaf is in normal form where it stands, `prev` being the character before it. -/
def Normal (dialect : Dialect) (prev : Option Char) : Leaf → Prop
  | .fragment f => f.Normal dialect ∧ (f.isSeparator → atLineStart prev)
  | .codeBlock _ _ _ => dialect = .plain
  | .sectionStart _ _ => dialect = .sectioned
  | .sectionCode _ | .sectionEnd => True

end Leaf

/-- The tree of a file is in normal form. -/
structure Tree.Normal (t : Tree) (source : String) : Prop where
  /-- The leaves are the file, cut into pieces. -/
  whole : t.leaves.flatMap Leaf.source = source.toList
  fragment : ∀ f, .fragment f ∈ t.leaves → f.Normal t.dialect
  /-- Neighbouring texts are one. -/
  apart : t.leaves.IsChain fun a b => ¬ (a.isText ∧ b.isText)
  codeBlock : ∀ opening code closing, .codeBlock opening code closing ∈ t.leaves →
    t.dialect = .plain
  sections : ∀ keyword s, .sectionStart keyword s ∈ t.leaves → t.dialect = .sectioned
  /-- Separators stand at the start of the file or of a line. -/
  separator : ∀ before s, t.Stands before (.fragment (.separator s)) →
    before = [] ∨ before.getLast? = some '\n'
  /-- What is opaque and what gives a file its structure do not overlap. -/
  immune : ∀ before before' leaf leaf', t.Stands before leaf → t.Stands before' leaf' →
    leaf.isOpaque → leaf'.isStructure →
    before ++ leaf.source <+: before' ∨ before' ++ leaf'.source <+: before

/-! ## §3 Text -/

variable {dialect : Dialect} {place : Place} {prev : Option Char} {c : Char}
  {cs rest : List Char}

theorem lastChar_cons (prev : Option Char) (c : Char) (cs : List Char) :
    lastChar prev (c :: cs) = lastChar (some c) cs := by
  cases cs with
  | nil => rfl
  | cons d ds =>
    rw [lastChar, lastChar, List.getLast?_cons_cons,
      List.getLast?_eq_some_getLast (List.cons_ne_nil d ds)]
    rfl

theorem lastChar_append (prev : Option Char) (cs ds : List Char) :
    lastChar prev (cs ++ ds) = lastChar (lastChar prev cs) ds := by
  rw [lastChar, lastChar, lastChar, List.getLast?_append, Option.or_assoc]

/-- Inside a run of text no text ends. -/
theorem endsText_of_textRun_eq {before after : List Char} {d : Char}
    (h : (textRun place prev cs).1 = before ++ d :: after) :
    endsText place (lastChar prev before) (d :: after ++ (textRun place prev cs).2) = false := by
  fun_induction textRun place prev cs generalizing before with
  | case1 => simp at h
  | case2 => simp at h
  | case3 prev c cs hgoes run rest heq ih =>
    simp only [heq] at ih
    cases before with
    | nil =>
      -- The first character of the run was looked at with all that follows it.
      obtain ⟨rfl, rfl⟩ := List.cons.inj h
      have hsource := source_textRun place (some c) cs
      simp only [heq] at hsource
      rw [List.cons_append, hsource]
      simpa [lastChar] using hgoes
    | cons b before =>
      obtain ⟨rfl, htail⟩ := List.cons.inj h
      rw [lastChar_cons]
      exact ih htail

/-- A run of text goes on as long as it can. -/
theorem endsText_after_textRun (place : Place) (prev : Option Char) (cs : List Char) :
    (textRun place prev cs).2 = [] ∨
      endsText place (lastChar prev (textRun place prev cs).1) (textRun place prev cs).2 := by
  fun_induction textRun place prev cs with
  | case1 => exact .inl rfl
  | case2 prev c cs hends => exact .inr (by simpa [lastChar] using hends)
  | case3 prev c cs hgoes run rest heq ih =>
    simp only [heq] at ih
    rwa [lastChar_cons]

/-- The dialect of the files in which a place is. -/
def Place.inDialect : Place → Dialect
  | .plainFile => .plain
  | .sectionedFile | .insideSection => .sectioned

theorem Place.eq_plainFile (place : Place) (h : place.inDialect = .plain) :
    place = .plainFile := by
  cases place <;> first | rfl | cases h

/-- A text in which text nowhere ends is literal. -/
theorem literal_of_endsText (prev : Option Char) (rest : List Char) {s : List Char}
    (hne : s ≠ [])
    (h : ∀ before d after, s = before ++ d :: after →
      endsText place (lastChar prev before) (d :: after ++ rest) = false) :
    Literal place.inDialect s where
  ne_nil := hne
  quote q hq hmem := by
    obtain ⟨before, after, heq⟩ := List.append_of_mem hmem
    have hgoes := h before q after heq
    -- Every quote ends text, in every place.
    simp only [quotes, List.mem_cons, List.not_mem_nil, or_false] at hq
    rcases hq with rfl | rfl | rfl <;> simp [endsText] at hgoes
  opener o ho hinfix := by
    obtain ⟨before, after, heq⟩ := hinfix
    simp only [openers, List.mem_cons, List.not_mem_nil, or_false] at ho
    -- Where the first character of an opener stands, the scan sees the second one too.
    have hgoes := fun d e (ho : o = [d, e]) =>
      h before d (e :: after) (by rw [← heq, ho]; simp)
    rcases ho with rfl | rfl | rfl <;> simpa [endsText] using hgoes _ _ rfl
  brace hdialect hmem := by
    obtain ⟨before, after, heq⟩ := List.append_of_mem hmem
    have hgoes := h before _ after heq
    cases place with
    | plainFile => cases hdialect
    | sectionedFile | insideSection => simp [endsText] at hgoes

/-! ## §4 Fragments -/

/-- A quotation that ends with a quote ends with its own. -/
theorem exists_inner_of_quotedRun? {q : Char} {s : List Char}
    (h : quotedRun? q cs = some (s, .closed rest)) : ∃ inner, s = inner ++ [q] := by
  fun_induction quotedRun? q cs generalizing s with
  | case1 => cases h
  | case2 => cases h
  | case3 c cs ih =>
    obtain ⟨⟨s', stop⟩, hs, heq⟩ := Option.map_eq_some_iff.1 h
    cases heq
    obtain ⟨inner, rfl⟩ := ih hs
    exact ⟨'\\' :: c :: inner, rfl⟩
  | case4 =>
    cases h
    exact ⟨[], rfl⟩
  | case5 => cases h
  | case6 c cs _ _ _ _ ih =>
    obtain ⟨⟨s', stop⟩, hs, heq⟩ := Option.map_eq_some_iff.1 h
    cases heq
    obtain ⟨inner, rfl⟩ := ih hs
    exact ⟨c :: inner, rfl⟩

/-- At most one text, which is not empty. -/
theorem textPart_cases (s : List Char) :
    textPart s = [] ∨ ∃ t ≠ "", textPart s = [.text t] := by
  unfold textPart
  split
  · exact .inl rfl
  · next hne => exact .inr ⟨String.ofList s, by simpa using hne, rfl⟩

/-- The parts of quoted text after what has been read of it already. -/
theorem parts_of_scanQuoted {q : Char} {start lead : List Char} {parts : List QuotedPart}
    (h : scanQuoted q start lead cs = .ok (parts, rest)) :
    (∀ s, .text s ∈ parts → s ≠ "") ∧ (parts.IsChain fun a b => ¬ (a.isText ∧ b.isText)) ∧
      ∃ inner, parts.flatMap QuotedPart.source = lead ++ inner ++ [q] := by
  fun_induction scanQuoted q start lead cs generalizing parts rest with
  | case1 => cases h
  | case2 lead cs s rest' hq =>
    cases h
    obtain ⟨inner, rfl⟩ := exists_inner_of_quotedRun? hq
    refine ⟨?_, ?_, inner, by rw [source_textPart, List.append_assoc]⟩
    · rcases textPart_cases (lead ++ (inner ++ [q])) with hpart | ⟨t, ht, hpart⟩
      · simp [hpart]
      · simpa [hpart] using ht
    · rcases textPart_cases (lead ++ (inner ++ [q])) with hpart | ⟨t, -, hpart⟩ <;> simp [hpart]
  | case3 => cases h
  | case4 lead cs s rest' hq expr rest'' hp ih =>
    obtain ⟨⟨parts', _⟩, hs, heq⟩ := exists_of_map_eq_ok h
    cases heq
    obtain ⟨htext, hapart, inner, hinner⟩ := ih hs
    -- A placeholder stands between the text before it and that of the other parts.
    have hplaceholder : (QuotedPart.placeholder expr :: parts').IsChain
        fun a b => ¬ (a.isText ∧ b.isText) := by
      rw [List.isChain_cons]
      exact ⟨fun part _ => by simp [QuotedPart.isText], hapart⟩
    refine ⟨?_, ?_, s ++ placeholderSource expr ++ inner, ?_⟩
    · rcases textPart_cases (lead ++ s) with hpart | ⟨t, ht, hpart⟩
      · simpa [hpart] using htext
      · simpa [hpart] using ⟨ht, htext⟩
    · rcases textPart_cases (lead ++ s) with hpart | ⟨t, -, hpart⟩
      · simpa [hpart] using hplaceholder
      · rw [hpart, List.singleton_append, List.isChain_cons]
        exact ⟨by simp [QuotedPart.isText], hplaceholder⟩
    · rw [List.flatMap_append, source_textPart, List.flatMap_cons, hinner]
      simp [QuotedPart.source]

theorem quotation_of_scanQuoted {q : Char} {start : List Char} {parts : List QuotedPart}
    (hq : q ∈ quotes) (h : scanQuoted q start [q] cs = .ok (parts, rest)) : Quotation parts := by
  obtain ⟨htext, hapart, inner, hinner⟩ := parts_of_scanQuoted h
  refine ⟨?_, htext, hapart, q, hq, inner, hinner⟩
  rintro rfl
  simp at hinner

/-- What a blank follows is code if the word is. -/
theorem startsCode_of_word {word after : List Char} {blank : Char}
    (hword : word.map Char.toLower = ['j', 'i', 'n', 'j', 'a']) (hblank : Text.isBlank blank) :
    startsCode (word ++ blank :: after) := by
  have hlength : word.length = 5 := by simpa using congrArg List.length hword
  simp [startsCode, hlength, hword, hblank]

theorem startsCode_of_marksCode {a b : Char} {s : List Char} (after : List Char)
    (h : MarksCode (a :: b :: s)) : startsCode (s ++ after) := by
  obtain ⟨o, ho, word, blank, tail, heq, hword, hblank⟩ := h
  have hs : s = word ++ blank :: tail := by
    simp only [List.mem_cons, List.not_mem_nil, or_false] at ho
    rcases ho with rfl | rfl <;> simpa using (List.cons.inj (List.cons.inj heq).2).2
  rw [hs, List.append_assoc]
  exact startsCode_of_word hword hblank

theorem dashes_of_isSeparator {line : List Char} (h : isSeparator line) : Dashes line := by
  obtain ⟨before, after, hline, hblank⟩ :=
    Text.exists_of_trimBoth (fun c => c == ' ' || c == '\t') line
  rw [eq_of_beq h] at hline
  exact ⟨before, after, hline, fun c hc => by simpa using hblank c hc⟩

/-- Nothing else than a fragment starts with the character, `prev` being the one before it. -/
structure NothingElse (place : Place) (prev : Option Char) (c : Char) (cs : List Char) :
    Prop where
  codeBlock : place = .plainFile → codeBlock? (c :: cs) = none
  brace : place ≠ .plainFile → c ≠ '\x7d'
  sections : place = .sectionedFile → section? prev (c :: cs) = none

/-- What the scan of a fragment finds, and where. -/
inductive Finds (place : Place) (prev : Option Char) : List Char → Fragment → List Char → Prop where
  | separator {cs line rest : List Char} (h : separator? prev cs = some (line, rest)) :
    Finds place prev cs (.separator (String.ofList line)) rest
  | quoted {q : Char} {cs rest : List Char} {parts : List QuotedPart} (hq : q ∈ quotes)
    (h : scanQuoted q (q :: cs) [q] cs = .ok (parts, rest)) :
    Finds place prev (q :: cs) (.quoted parts) rest
  /-- The rest of a line, which holds no code. -/
  | line (body : List Char)
    (h : place = .plainFile → startsCode (body.takeWhile (· != '\n')) = false) :
    Finds place prev ('-' :: '-' :: body)
      (.comment (String.ofList ('-' :: '-' :: body.takeWhile (· != '\n'))))
      (body.dropWhile (· != '\n'))
  /-- A comment up to its end.  The marker of code is looked for in all that follows. -/
  | block {inner rest : List Char}
    (h : place = .plainFile → startsCode (inner ++ '*' :: '/' :: rest) = false) :
    Finds place prev ('/' :: '*' :: (inner ++ '*' :: '/' :: rest))
      (.comment (String.ofList ('/' :: '*' :: inner ++ ['*', '/']))) rest
  | placeholder {cs rest : List Char} (expr : String) :
    Finds place prev cs (.placeholder expr) rest
  /-- A run of text that nothing else could start. -/
  | text {c : Char} {cs : List Char} (h : endsText place prev (c :: cs) = false) :
    Finds place prev (c :: cs) (.text (String.ofList (c :: (textRun place (some c) cs).1)))
      (textRun place (some c) cs).2

theorem finds_of_scanFragment {f : Fragment} (hother : NothingElse place prev c cs)
    (h : scanFragment place prev c cs = .ok (f, rest)) : Finds place prev (c :: cs) f rest := by
  unfold scanFragment at h
  split at h
  · next hsep =>
    cases h
    exact .separator hsep
  · next hsep =>
    split at h
    · next hquote =>
      obtain ⟨_, hparts, heq⟩ := exists_of_map_eq_ok h
      cases heq
      exact .quoted (by simpa [quotes] using hquote) hparts
    · next hquote =>
      split at h
      · next body =>
        cases h
        exact .line body fun hplace => by simpa [codeBlock?] using hother.codeBlock hplace
      · next body =>
        split at h
        · next inner rest' hend =>
          cases h
          rw [← source_commentEnd? hend]
          refine .block fun hplace => ?_
          have hnone := hother.codeBlock hplace
          simp only [codeBlock?, hend, source_commentEnd? hend] at hnone ⊢
          by_contra hcode
          simp [hcode] at hnone
        · cases h
      · obtain ⟨_, _, heq⟩ := exists_of_map_eq_ok h
        cases heq
        exact .placeholder _
      · next hdashes hstar hdollar =>
        cases h
        refine .text ?_
        -- Whatever else could end a text here has been looked at before.
        simp only [endsText, hsep, Option.isSome_none, Bool.false_or]
        simp only [not_or] at hquote
        split
        · exact absurd (List.cons.inj ‹_›).1 hquote.1
        · exact absurd (List.cons.inj ‹_›).1 hquote.2.1
        · exact absurd (List.cons.inj ‹_›).1 hquote.2.2
        · next heq => exact (hdashes _ (List.cons.inj heq).1 (List.cons.inj heq).2).elim
        · next heq => exact (hstar _ (List.cons.inj heq).1 (List.cons.inj heq).2).elim
        · next heq => exact (hdollar _ (List.cons.inj heq).1 (List.cons.inj heq).2).elim
        · next heq => simpa using fun hplace => hother.brace hplace (List.cons.inj heq).1
        · by_cases hplace : place = .sectionedFile
          · simp [hplace, hother.sections hplace]
          · simp [hplace]

theorem Finds.normal {f : Fragment} (h : Finds place prev cs f rest) :
    (Leaf.fragment f).Normal place.inDialect prev := by
  cases h with
  | separator h =>
    unfold separator? at h
    split at h
    · next hline =>
      cases h
      simp only [Bool.and_eq_true] at hline
      exact ⟨by simpa [Fragment.Normal] using dashes_of_isSeparator hline.2, fun _ => hline.1⟩
    · cases h
  | quoted hq h => exact ⟨quotation_of_scanQuoted hq h, by simp [Fragment.isSeparator]⟩
  | line body h =>
    refine ⟨fun hdialect hmarks => ?_, by simp [Fragment.isSeparator]⟩
    have hcode := startsCode_of_marksCode [] (by simpa using hmarks)
    rw [List.append_nil, h (place.eq_plainFile hdialect)] at hcode
    cases hcode
  | block h =>
    refine ⟨fun hdialect hmarks => ?_, by simp [Fragment.isSeparator]⟩
    have hcode := startsCode_of_marksCode rest (by simpa using hmarks)
    rw [List.append_assoc, List.cons_append, List.singleton_append,
      h (place.eq_plainFile hdialect)] at hcode
    cases hcode
  | placeholder expr => exact ⟨trivial, by simp [Fragment.isSeparator]⟩
  | @text c cs h =>
    refine ⟨?_, by simp [Fragment.isSeparator]⟩
    have hrun : textRun place prev (c :: cs) =
        (c :: (textRun place (some c) cs).1, (textRun place (some c) cs).2) := by
      rw [textRun, if_neg (by simp [h])]
    rw [Fragment.Normal, String.toList_ofList]
    -- What stands in the run is judged with everything that follows the run.
    refine literal_of_endsText prev (textRun place (some c) cs).2 (List.cons_ne_nil _ _)
      fun before d after heq => ?_
    have hgoes : endsText place (lastChar prev before)
        (d :: after ++ (textRun place prev (c :: cs)).2) = false :=
      endsText_of_textRun_eq (by rw [hrun]; exact heq)
    rwa [hrun] at hgoes

/-- Where text starts none ended before. -/
theorem Finds.isText_eq_false {f : Fragment} (h : Finds place prev cs f rest)
    (hends : endsText place prev cs) : f.isText = false := by
  cases h with
  | text hgoes => rw [hgoes] at hends; cases hends
  | _ => rfl

/-- Text goes on until something ends it. -/
theorem Finds.endsText {f : Fragment} (h : Finds place prev cs f rest) (htext : f.isText) :
    rest = [] ∨ endsText place (lastChar prev f.source) rest := by
  cases h with
  | @text c cs _ =>
    rw [Fragment.source, String.toList_ofList, lastChar_cons]
    exact endsText_after_textRun place (some c) cs
  | _ => cases htext

/-! ## §5 Sections and files -/

/-- Leaves that are read one after the other are in normal form, `prev` being the character before
them and `afterText` telling whether text stands there. -/
def NormalFrom (dialect : Dialect) (afterText : Bool) (prev : Option Char) : List Leaf → Prop
  | [] => True
  | leaf :: leaves =>
    leaf.Normal dialect prev ∧ ¬ (afterText ∧ leaf.isText) ∧
      NormalFrom dialect leaf.isText (lastChar prev leaf.source) leaves

variable {afterText : Bool} {leaves tail : List Leaf}

/-- What is known where `afterText` tells that text stands before what is left of the file. -/
def TextEnded (place : Place) (afterText : Bool) (prev : Option Char) (cs : List Char) : Prop :=
  afterText → cs = [] ∨ endsText place prev cs

/-- No text is found next to a text that has ended. -/
theorem Finds.apart {f : Fragment} (h : Finds place prev (c :: cs) f rest)
    (hended : TextEnded place afterText prev (c :: cs)) :
    ¬ (afterText ∧ (Leaf.fragment f).isText) := by
  rintro ⟨hafter, htext⟩
  have hends := (hended hafter).resolve_left (List.cons_ne_nil c cs)
  exact absurd htext (by simp [Leaf.isText, h.isText_eq_false hends])

/-- The leaves of a section after its opening. -/
theorem normalFrom_of_scanSection {fragments : List Fragment}
    (h : scanSection prev cs = .ok (some (fragments, rest)))
    (hended : TextEnded .insideSection afterText prev cs)
    (htail : NormalFrom .sectioned false (some '\x7d') tail) :
    NormalFrom .sectioned afterText prev
      (fragments.map .fragment ++ .sectionEnd :: tail) := by
  -- Along the scan.  Its last case finds one more fragment, before which all text has ended.
  fun_induction scanSection prev cs generalizing fragments rest afterText with
  | case1 => cases h
  | case2 prev cs =>
    cases h
    exact ⟨trivial, by simp [Leaf.isText], htail⟩
  | case3 => cases h
  | case4 prev c cs hbrace f rest' hf ih =>
    obtain ⟨found, hs, heq⟩ := exists_of_map_eq_ok h
    cases found with
    | none => cases heq
    | some found =>
      cases heq
      have hfinds : Finds .insideSection prev (c :: cs) f rest' :=
        finds_of_scanFragment ⟨by simp, fun _ => hbrace, by simp⟩ hf
      exact ⟨hfinds.normal, hfinds.apart hended, ih hs hfinds.endsText⟩

/-- The place at the top of a file. -/
def Dialect.top : Dialect → Place
  | .plain => .plainFile
  | .sectioned => .sectionedFile

@[simp] theorem Dialect.inDialect_top (dialect : Dialect) : dialect.top.inDialect = dialect := by
  cases dialect <;> rfl

/-- What the scan of a node finds. -/
inductive FindsNode : Dialect → Option Char → List Char → Node → List Char → Prop where
  | fragment {dialect : Dialect} {prev : Option Char} {cs rest : List Char} {f : Fragment}
    (h : Finds dialect.top prev cs f rest) : FindsNode dialect prev cs (.fragment f) rest
  | codeBlock {prev : Option Char} {cs rest : List Char} (opening code closing : String) :
    FindsNode .plain prev cs (.codeBlock opening code closing) rest
  | codeSection {prev : Option Char} {cs rest : List Char} (kind : CodeSection)
    (opening code : String) :
    FindsNode .sectioned prev cs (.braced (.code kind) opening (.code code)) rest
  | sqlSection {prev : Option Char} {cs inner rest : List Char} {body : List Fragment}
    (kind : SqlSection) {opening : List Char} (hopening : opening.getLast? = some '\x7b')
    (h : scanSection (some '\x7b') inner = .ok (some (body, rest))) :
    FindsNode .sectioned prev cs (.braced (.sql kind) (String.ofList opening) (.sql body)) rest

theorem getLast?_of_section? {keyword : Keyword} {opening : List Char}
    (h : section? prev cs = some (keyword, opening, rest)) : opening.getLast? = some '\x7b' := by
  unfold section? at h
  split at h
  · cases h
  · obtain ⟨keyword', -, hk⟩ := List.exists_of_findSome?_eq_some h
    obtain ⟨⟨opening', rest'⟩, ho, heq⟩ := Option.map_eq_some_iff.1 hk
    cases heq
    simp only [opening?, Option.bind_eq_bind, Option.bind_eq_some_iff] at ho
    obtain ⟨_, -, _, -, ho⟩ := ho
    split at ho
    · cases ho
      exact List.getLast?_concat
    · cases ho

theorem exists_eq_codeBlock {node : Node} (h : codeBlock? cs = some (.ok (node, rest))) :
    ∃ opening code closing, node = .codeBlock opening code closing := by
  unfold codeBlock? at h
  split at h
  · split at h <;> cases h
    exact ⟨_, _, _, rfl⟩
  · split at h
    · split at h <;> cases h
      exact ⟨_, _, _, rfl⟩
    · cases h
  · cases h

/-- The section of a keyword, its opening being read. -/
theorem findsNode_of_scanSectionOf {keyword : Keyword} {start opening cs' : List Char} {node : Node}
    (hopening : opening.getLast? = some '\x7b')
    (h : scanSectionOf keyword start opening cs' = .ok (node, rest)) :
    FindsNode .sectioned prev cs node rest := by
  cases keyword with
  | code kind =>
    cases hcode : balanced? 0 cs' with
    | none => simp [scanSectionOf, hcode] at h
    | some found =>
      simp only [scanSectionOf, hcode] at h
      cases h
      exact .codeSection kind _ _
  | sql kind =>
    cases hbody : scanSection (some '\x7b') cs' with
    | error e => simp [scanSectionOf, hbody] at h
    | ok found =>
      cases found with
      | none => simp [scanSectionOf, hbody] at h
      | some found =>
        simp only [scanSectionOf, hbody] at h
        cases h
        exact .sqlSection kind hopening hbody

theorem findsNode_of_scanNode {node : Node} (h : scanNode dialect prev c cs = .ok (node, rest)) :
    FindsNode dialect prev (c :: cs) node rest := by
  cases dialect with
  | plain =>
    cases hcode : codeBlock? (c :: cs) with
    | some found =>
      simp only [scanNode, hcode] at h
      obtain ⟨opening, code, closing, rfl⟩ := exists_eq_codeBlock (h ▸ hcode)
      exact .codeBlock opening code closing
    | none =>
      simp only [scanNode, hcode] at h
      obtain ⟨_, hf, heq⟩ := exists_of_map_eq_ok h
      cases heq
      -- A fragment is read only where no code block starts.
      have hother : NothingElse .plainFile prev c cs :=
        ⟨fun _ => hcode, by simp, by simp⟩
      exact .fragment (finds_of_scanFragment hother hf)
  | sectioned =>
    by_cases hbrace : c = '\x7d'
    · simp [scanNode, hbrace] at h
    · cases hsection : section? prev (c :: cs) with
      | some found =>
        simp only [scanNode, if_neg hbrace, hsection] at h
        exact findsNode_of_scanSectionOf (getLast?_of_section? hsection) h
      | none =>
        simp only [scanNode, if_neg hbrace, hsection] at h
        obtain ⟨_, hf, heq⟩ := exists_of_map_eq_ok h
        cases heq
        -- A fragment is read only where neither a section starts nor a brace stands.
        have hother : NothingElse .sectionedFile prev c cs :=
          ⟨by simp, fun _ => hbrace, fun _ => hsection⟩
        exact .fragment (finds_of_scanFragment hother hf)

/-- The leaves of a file or of what is left of it. -/
theorem normalFrom_of_scanFile {nodes : List Node} (h : scanFile dialect prev cs = .ok nodes)
    (hended : TextEnded dialect.top afterText prev cs) :
    NormalFrom dialect afterText prev (nodes.flatMap Node.leaves) := by
  fun_induction scanFile dialect prev cs generalizing nodes afterText with
  | case1 => cases h; trivial
  | case2 => cases h
  | case3 prev c cs node rest hn ih =>
    obtain ⟨nodes', hs, heq⟩ := exists_of_map_eq_ok h
    cases heq
    rw [List.flatMap_cons]
    cases findsNode_of_scanNode hn with
    | @fragment _ _ _ _ f hfinds =>
      have hnormal := hfinds.normal
      rw [Dialect.inDialect_top] at hnormal
      exact ⟨hnormal, hfinds.apart hended, ih hs hfinds.endsText⟩
    | codeBlock opening code closing =>
      exact ⟨rfl, by simp [Leaf.isText], ih hs (by simp [TextEnded, Leaf.isText])⟩
    | codeSection kind opening code =>
      refine ⟨rfl, by simp [Leaf.isText], trivial, by simp [Leaf.isText], trivial,
        by simp [Leaf.isText], ?_⟩
      have htail : NormalFrom .sectioned false _ _ := ih hs (by simp [TextEnded])
      rw [Node.source, lastChar_append, lastChar_append] at htail
      exact htail
    | @sqlSection _ _ inner _ body kind opening hopening hbody =>
      -- The scan of the section starts after a brace, and that of what follows it after another.
      have htail : NormalFrom .sectioned false _ _ := ih hs (by simp [TextEnded])
      rw [Node.source, lastChar_append] at htail
      have hbrace : lastChar prev opening = some '\x7b' := by rw [lastChar, hopening]; rfl
      have hleaves : NormalFrom .sectioned false _ _ :=
        normalFrom_of_scanSection hbody (by simp [TextEnded]) htail
      refine ⟨rfl, by simp [Leaf.isText], ?_⟩
      simpa [SectionBody.leaves, Leaf.source, hbrace, Leaf.isText] using hleaves

/-! ## §6 Whole files -/

namespace NormalFrom

/-- Every leaf is in normal form where it stands. -/
theorem normal {done rest : List Leaf} {leaf : Leaf}
    (h : NormalFrom dialect afterText prev (done ++ leaf :: rest)) :
    leaf.Normal dialect (lastChar prev (done.flatMap Leaf.source)) := by
  induction done generalizing afterText prev with
  | nil => exact h.1
  | cons first done ih =>
    rw [List.flatMap_cons, lastChar_append]
    exact ih h.2.2

theorem isChain (h : NormalFrom dialect afterText prev leaves) :
    leaves.IsChain fun a b => ¬ (a.isText ∧ b.isText) := by
  induction leaves generalizing afterText prev with
  | nil => exact .nil
  | cons leaf leaves ih =>
    refine List.isChain_cons.2 ⟨fun next hnext => ?_, ih h.2.2⟩
    cases leaves with
    | nil => cases hnext
    | cons _ _ =>
      cases hnext
      exact h.2.2.2.1

end NormalFrom

variable {tree : Tree} {source : String}

/-- The leaves of the tree of a file are in normal form. -/
theorem normalFrom_of_lex (h : lex dialect source = .ok tree) :
    NormalFrom tree.dialect false none tree.leaves := by
  obtain ⟨hscan, rfl⟩ := scanFile_of_lex h
  exact normalFrom_of_scanFile hscan (by simp [TextEnded])

/-- What stands at two places of a file is the same or does not overlap. -/
theorem Tree.Stands.eq_or_apart {before before' : List Char} {leaf leaf' : Leaf}
    (h : tree.Stands before leaf) (h' : tree.Stands before' leaf') :
    leaf = leaf' ∨ before ++ leaf.source <+: before' ∨ before' ++ leaf'.source <+: before := by
  obtain ⟨done, rest, hleaves, rfl⟩ := h
  obtain ⟨done', rest', hleaves', rfl⟩ := h'
  rcases List.append_eq_append_iff.1 (hleaves.symm.trans hleaves') with
    ⟨between, rfl, hrest⟩ | ⟨between, rfl, hrest⟩
  -- What stands between the two places starts with the first of the leaves, if there is anything.
  · cases between with
    | nil => exact .inl (List.cons.inj hrest).1
    | cons _ between =>
      obtain ⟨rfl, -⟩ := List.cons.inj hrest
      exact .inr (.inl ⟨between.flatMap Leaf.source, by simp⟩)
  · cases between with
    | nil => exact .inl (List.cons.inj hrest).1.symm
    | cons _ between =>
      obtain ⟨rfl, -⟩ := List.cons.inj hrest
      exact .inr (.inr ⟨between.flatMap Leaf.source, by simp⟩)

/-- The tree of a file of either dialect is in normal form. -/
theorem normal_of_lex (h : lex dialect source = .ok tree) :
    tree.dialect = dialect ∧ tree.Normal source := by
  have hrun := normalFrom_of_lex h
  have hnormal : ∀ done leaf rest, tree.leaves = done ++ leaf :: rest →
      leaf.Normal tree.dialect (lastChar none (done.flatMap Leaf.source)) :=
    fun done leaf rest hleaves => (hleaves ▸ hrun).normal
  refine ⟨(scanFile_of_lex h).2, ?_, ?_, hrun.isChain, ?_, ?_, ?_, ?_⟩
  · rw [Tree.leaves, List.flatMap_assoc]
    simpa using flatMap_source_of_lex h
  · intro f hf
    obtain ⟨done, rest, hleaves⟩ := List.append_of_mem hf
    exact (hnormal _ _ _ hleaves).1
  · intro opening code closing hmem
    obtain ⟨done, rest, hleaves⟩ := List.append_of_mem hmem
    exact hnormal _ _ _ hleaves
  · intro keyword s hmem
    obtain ⟨done, rest, hleaves⟩ := List.append_of_mem hmem
    exact hnormal _ _ _ hleaves
  · rintro before s ⟨done, rest, hleaves, rfl⟩
    have hstart := (hnormal _ _ _ hleaves).2 rfl
    rw [lastChar, Option.or_none, atLineStart] at hstart
    cases hlast : (done.flatMap Leaf.source).getLast? with
    | none => exact .inl (List.getLast?_eq_none_iff.1 hlast)
    | some c => exact .inr (by simpa [hlast] using hstart)
  · intro before before' leaf leaf' h h' hopaque hstructure
    refine (h.eq_or_apart h').resolve_left ?_
    rintro rfl
    exact leaf.not_isStructure hopaque hstructure

/-- Markers in quotes and after a comment has begun start no code block, and dashes in a comment
separate nothing. -/
theorem normal_of_lex_immune :
    let source := "SELECT '/*jinja a */ $\x7bb\x7d' -- /*jinja c */\n /*\n---\n*/ --jinja d\n---\n"
    ∃ tree, lex .plain source = .ok tree ∧ tree.Normal source ∧
      tree.leaves.filter Leaf.isStructure =
        [.codeBlock "--jinja" " d" "", .fragment (.separator "---")] := by
  intro source
  have hlex : lex .plain source = .ok ⟨.plain,
      [ .fragment (.text "SELECT "),
        .fragment (.quoted [.text "'/*jinja a */ ", .placeholder "b", .text "'"]),
        .fragment (.text " "),
        .fragment (.comment "-- /*jinja c */"),
        .fragment (.text "\n "),
        .fragment (.comment "/*\n---\n*/"),
        .fragment (.text " "),
        .codeBlock "--jinja" " d" "",
        .fragment (.text "\n"),
        .fragment (.separator "---"),
        .fragment (.text "\n") ]⟩ := by decide +kernel
  exact ⟨_, hlex, (normal_of_lex hlex).2, by decide⟩

end SqlWorkflow.Sql
