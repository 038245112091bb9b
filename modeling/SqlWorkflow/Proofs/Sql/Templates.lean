import SqlWorkflow.Proofs.Sql.NormalForm
import SqlWorkflow.Sql.Program

/-!
# Templates keep literal SQL apart from code

The template of an action loses nothing of the SQL of its file and holds nothing of it but code
(`compile_template`).  It is made of the code blocks and of one block for each stretch of SQL.  A
block is a row of slots, each of which either looks up a literal or evaluates an expression.  The
slots of all blocks look up every literal once, in order, and when they are filled with what stands
in the file they give the stretches back.  What the literals are cannot be seen in the template.

What can be seen is whether there is a stretch: where the SQL of a file is split into statements,
a statement of blanks and comments has none (`template_ne_of_blank_statement`).

- **§1** Slots and blocks.
- **§2** The stretches of a file.
- **§3** Filling the slots of a template.
- **§4** The outline of a file, which is all that its template depends on.
- **§5** The programs of files.
-/

namespace SqlWorkflow.Sql

/-! ## §1 Slots and blocks -/

/-- A place in a template that gives some text. -/
inductive Slot where
  /-- The literal with a number. -/
  | look (index : Nat)
  /-- The value of an expression. -/
  | code (expr : String)
  deriving DecidableEq, Repr

namespace Slot

/-- The slot as it stands in a template. -/
def text : Slot → String
  | .look index => "\x7b\x7b " ++ Piece.literalsName ++ "[" ++ toString index ++ "] \x7d\x7d"
  | .code expr => "\x7b\x7b (" ++ expr ++ ") \x7d\x7d"

/-- The number of the literal that is looked up. -/
def index? : Slot → Option Nat
  | .look index => some index
  | .code _ => none

/-- What stands in the file where the slot is in the template. -/
def fill (literals : List String) : Slot → List Char
  | .look index => (literals[index]?.getD "").toList
  | .code expr => placeholderSource expr

end Slot

/-- The slots for one stretch of SQL. -/
structure Block where
  part : Part
  slots : List Slot
  deriving DecidableEq, Repr

namespace Block

/-- The block as it stands in a template. -/
def text (b : Block) : String :=
  "\x7b% filter " ++ PartBody.filterName ++ "(\"" ++ b.part.name ++ "\") %\x7d" ++
    String.join (b.slots.map Slot.text) ++ "\x7b% endfilter %\x7d\n"

/-- The numbers of the literals that are looked up. -/
def indices (b : Block) : List Nat := b.slots.filterMap Slot.index?

/-- What stands in the file where the block is in the template. -/
def fill (literals : List String) (b : Block) : List Char := b.slots.flatMap (Slot.fill literals)

end Block

/-! ## §2 Stretches -/

/-- Some SQL and what it is for. -/
structure Stretch where
  part : Part
  fragments : List Fragment
  deriving DecidableEq, Repr

/-- The stretch as a part of an action. -/
def Stretch.body (s : Stretch) : PartBody := PartBody.ofFragments s.part s.fragments

/-- Is it a code block? -/
def Node.isCodeBlock : Node → Bool
  | .codeBlock _ _ _ => true
  | _ => false

/-- The stretches of a file of the plain dialect without its code blocks. -/
def plainStretches (path : String) (fragments : List Fragment) : List Stretch :=
  if hasEnding ".ops.sql" path then (statements fragments).map (⟨.query, ·⟩)
  else [⟨.query, fragments⟩]

namespace Sections

/-- The queries of an action: operations have one for each statement, declarations none. -/
def queries (s : Sections) : ConfigType → List (List Fragment)
  | .declaration => []
  | .operations => s.statements
  | _ => [s.statements.head?.getD []]

/-- The stretches of a file of the sectioned dialect. -/
def stretches (type : ConfigType) (s : Sections) : List Stretch :=
  (s.queries type).map (⟨.query, ·⟩) ++ s.preOperations.map (⟨.preOps, ·⟩) ++
    s.postOperations.map (⟨.postOps, ·⟩) ++
    s.incrementalWhere.toList.map (⟨.incrementalWhere, ·⟩) ++
    s.inputs.map fun input => ⟨.input, input.2⟩

end Sections

/-- The code and the stretches of SQL that a file is cut into. -/
inductive Cut (path : String) (type : ConfigType) :
    Tree → List String → List Stretch → Prop where
  /-- The code blocks are cut out, and what is left is one stretch, or one for each statement. -/
  | plain {tree : Tree} {fragments : List Fragment} (hdialect : tree.dialect = .plain)
    (hcut : tree.nodes.filter (!·.isCodeBlock) = fragments.map .fragment) :
    Cut path type tree tree.codeBlocks (plainStretches path fragments)
  /-- The sections are sorted by what they are for. -/
  | sectioned {tree : Tree} {s : Sections} (hdialect : tree.dialect = .sectioned)
    (hs : Sections.ofTree tree = .ok s) : Cut path type tree s.code (s.stretches type)

/-- A part of quoted text, its expression without blanks at its ends. -/
def QuotedPart.trimmed : QuotedPart → QuotedPart
  | .text s => .text s
  | .placeholder expr => .placeholder (Text.trim expr)

/-- A fragment, its expressions without blanks at their ends. -/
def Fragment.trimmed : Fragment → Fragment
  | .quoted parts => .quoted (parts.map QuotedPart.trimmed)
  | .placeholder expr => .placeholder (Text.trim expr)
  | f => f

/-! ## §3 Filling the slots -/

/-- What stands in the file where the piece is in the template. -/
def Piece.source : Piece → List Char
  | .literal sql => sql.toList
  | .code expr => placeholderSource expr

theorem source_consLiteral (sql : String) (pieces : List Piece) :
    (Piece.consLiteral sql pieces).flatMap Piece.source =
      sql.toList ++ pieces.flatMap Piece.source := by
  cases pieces with
  | nil => rfl
  | cons piece pieces =>
    cases piece with
    | literal rest => simp [Piece.consLiteral, Piece.source]
    | code expr => rfl

theorem source_ofQuoted (parts : List QuotedPart) (rest : List Piece) :
    (Piece.ofQuoted parts rest).flatMap Piece.source =
      (parts.map QuotedPart.trimmed).flatMap QuotedPart.source ++ rest.flatMap Piece.source := by
  induction parts with
  | nil => rfl
  | cons part parts ih =>
    cases part with
    | text s =>
      rw [Piece.ofQuoted, source_consLiteral, ih]
      simp [QuotedPart.trimmed, QuotedPart.source]
    | placeholder expr =>
      rw [Piece.ofQuoted, List.flatMap_cons, ih]
      simp [QuotedPart.trimmed, QuotedPart.source, Piece.source]

/-- The pieces of SQL are the SQL. -/
theorem source_ofFragments (fragments : List Fragment) :
    (Piece.ofFragments fragments).flatMap Piece.source =
      sourceOf (fragments.map Fragment.trimmed) := by
  induction fragments with
  | nil => rfl
  | cons f rest ih =>
    rw [List.map_cons, sourceOf, List.flatMap_cons, ← sourceOf, ← ih]
    cases f with
    | text s | comment s | separator s => exact source_consLiteral s _
    | quoted parts => exact source_ofQuoted parts _
    | placeholder expr => rfl

/-- The slots of pieces, the first literal being number `start`. -/
def slotsFrom (start : Nat) : List Piece → List Slot
  | [] => []
  | .literal _ :: rest => .look start :: slotsFrom (start + 1) rest
  | .code expr :: rest => .code expr :: slotsFrom start rest

theorem template_eq_join_slots (start : Nat) (pieces : List Piece) :
    Piece.template start pieces = String.join ((slotsFrom start pieces).map Slot.text) := by
  induction pieces generalizing start with
  | nil => rfl
  | cons piece pieces ih =>
    cases piece with
    | literal sql =>
      rw [Piece.template, ih, slotsFrom, List.map_cons, String.join_cons]
      rfl
    | code expr =>
      rw [Piece.template, ih, slotsFrom, List.map_cons, String.join_cons]
      rfl

theorem indices_slotsFrom (start : Nat) (pieces : List Piece) :
    (slotsFrom start pieces).filterMap Slot.index? =
      List.range' start (Piece.literals pieces).length := by
  induction pieces generalizing start with
  | nil => rfl
  | cons piece pieces ih =>
    cases piece with
    | literal sql => exact congrArg (start :: ·) (ih (start + 1))
    | code expr => exact ih start

/-- Slots are filled with the literals from where their numbers start. -/
theorem fill_slotsFrom (done rest : List String) (pieces : List Piece) :
    (slotsFrom done.length pieces).flatMap
        (Slot.fill (done ++ (Piece.literals pieces ++ rest))) = pieces.flatMap Piece.source := by
  induction pieces generalizing done with
  | nil => rfl
  | cons piece pieces ih =>
    cases piece with
    | literal sql =>
      -- The next literal counts as done for the slots after it.
      have htail := ih (done ++ [sql])
      rw [List.length_append, List.append_assoc] at htail
      rw [slotsFrom, List.flatMap_cons, List.flatMap_cons]
      refine congrArg₂ (· ++ ·) ?_ htail
      simp [Slot.fill, Piece.literals, Piece.source]
    | code expr =>
      rw [slotsFrom, List.flatMap_cons, List.flatMap_cons]
      exact congrArg (_ ++ ·) (ih done)

/-- The blocks of the parts of an action, the first literal being number `start`. -/
def blocksFrom (start : Nat) : List PartBody → List Block
  | [] => []
  | body :: rest =>
    ⟨body.part, slotsFrom start body.pieces⟩ ::
      blocksFrom (start + (Piece.literals body.pieces).length) rest

/-- The text of the block of a part. -/
theorem text_block (start : Nat) (body : PartBody) :
    Block.text ⟨body.part, slotsFrom start body.pieces⟩ = body.template start :=
  congrArg (fun slots => "\x7b% filter " ++ PartBody.filterName ++ "(\"" ++ body.part.name ++
    "\") %\x7d" ++ slots ++ "\x7b% endfilter %\x7d\n") (template_eq_join_slots _ _).symm

/-- The literals of the parts of an action. -/
def literalsOf (bodies : List PartBody) : List String :=
  bodies.flatMap fun body => Piece.literals body.pieces

theorem templateAll_eq_join_blocks (start : Nat) (bodies : List PartBody) :
    PartBody.templateAll start bodies = String.join ((blocksFrom start bodies).map Block.text) := by
  induction bodies generalizing start with
  | nil => rfl
  | cons body bodies ih =>
    rw [PartBody.templateAll, ih, blocksFrom, List.map_cons, String.join_cons, text_block]

theorem indices_blocksFrom (start : Nat) (bodies : List PartBody) :
    (blocksFrom start bodies).flatMap Block.indices =
      List.range' start (literalsOf bodies).length := by
  induction bodies generalizing start with
  | nil => rfl
  | cons body bodies ih =>
    have hliterals : literalsOf (body :: bodies) =
        Piece.literals body.pieces ++ literalsOf bodies := List.flatMap_cons
    rw [blocksFrom, List.flatMap_cons, ih, Block.indices, indices_slotsFrom, hliterals,
      List.length_append, List.range'_append_1]

/-- The block of the stretch gives its SQL when it is filled. -/
def Block.Fills (literals : List String) (stretch : Stretch) (block : Block) : Prop :=
  block.part = stretch.part ∧
    block.fill literals = sourceOf (stretch.fragments.map Fragment.trimmed)

/-- The blocks of stretches give them back when they are filled. -/
theorem fills_blocksFrom (done : List String) (stretches : List Stretch) :
    List.Forall₂ (Block.Fills (done ++ literalsOf (stretches.map Stretch.body))) stretches
      (blocksFrom done.length (stretches.map Stretch.body)) := by
  induction stretches generalizing done with
  | nil => exact .nil
  | cons stretch stretches ih =>
    rw [List.map_cons, literalsOf, List.flatMap_cons, blocksFrom]
    refine .cons ⟨rfl, ?_⟩ ?_
    · rw [← source_ofFragments]
      exact fill_slotsFrom done _ _
    · rw [← List.append_assoc, ← List.length_append]
      exact ih _

/-! ## §4 Outlines -/

/-- The part without its literal text. -/
def QuotedPart.outline : QuotedPart → QuotedPart
  | .text _ => .text ""
  | .placeholder expr => .placeholder expr

/-- The fragment without its literal text. -/
def Fragment.outline : Fragment → Fragment
  | .text _ => .text ""
  | .quoted parts => .quoted (parts.map QuotedPart.outline)
  | .comment _ => .comment ""
  | .separator _ => .separator ""
  | .placeholder expr => .placeholder expr

/-- The body of a section without its literal text. -/
def SectionBody.outline : SectionBody → SectionBody
  | .code s => .code s
  | .sql fragments => .sql (fragments.map Fragment.outline)

/-- The node without its literal text; code and the openings of sections stay. -/
def Node.outline : Node → Node
  | .fragment f => .fragment f.outline
  | .codeBlock opening code closing => .codeBlock opening code closing
  | .braced keyword opening body => .braced keyword opening body.outline

/-- The tree without literal text. -/
def Tree.outline (t : Tree) : Tree := ⟨t.dialect, t.nodes.map Node.outline⟩

/-- For each run of fragments between separators, does it hold no statement? -/
def blankRuns (fragments : List Fragment) : List Bool :=
  (splitRuns fragments).map fun run => run.all Fragment.isBlank

/-- The blank runs of a section whose SQL is split into statements. -/
def Node.blankRuns : Node → List Bool
  | .braced (.sql .preOperations) _ (.sql body) => Sql.blankRuns body
  | .braced (.sql .postOperations) _ (.sql body) => Sql.blankRuns body
  | _ => []

/-- The blank runs of a file, outside of sections first. -/
def Tree.blankRuns (t : Tree) : List (List Bool) :=
  Sql.blankRuns t.fragments :: t.nodes.map Node.blankRuns

/-- The piece without its literal text. -/
def Piece.outline : Piece → Piece
  | .literal _ => .literal ""
  | .code expr => .code expr

/-- The stretch without its literal text. -/
def Stretch.outline (s : Stretch) : Stretch := ⟨s.part, s.fragments.map Fragment.outline⟩

theorem slotsFrom_map_outline (start : Nat) (pieces : List Piece) :
    slotsFrom start (pieces.map Piece.outline) = slotsFrom start pieces := by
  induction pieces generalizing start with
  | nil => rfl
  | cons piece pieces ih =>
    cases piece with
    | literal sql => exact congrArg (_ :: ·) (ih (start + 1))
    | code expr => exact congrArg (_ :: ·) (ih start)

theorem length_literals_map_outline (pieces : List Piece) :
    (Piece.literals (pieces.map Piece.outline)).length = (Piece.literals pieces).length := by
  induction pieces with
  | nil => rfl
  | cons piece pieces ih =>
    cases piece with
    | literal sql => exact congrArg (· + 1) ih
    | code expr => exact ih

theorem outline_consLiteral (sql : String) (pieces : List Piece) :
    (Piece.consLiteral sql pieces).map Piece.outline =
      Piece.consLiteral "" (pieces.map Piece.outline) := by
  cases pieces with
  | nil => rfl
  | cons piece pieces => cases piece <;> rfl

theorem outline_ofQuoted (parts : List QuotedPart) (rest : List Piece) :
    (Piece.ofQuoted parts rest).map Piece.outline =
      Piece.ofQuoted (parts.map QuotedPart.outline) (rest.map Piece.outline) := by
  induction parts with
  | nil => rfl
  | cons part parts ih =>
    cases part with
    | text s =>
      rw [Piece.ofQuoted, outline_consLiteral, ih]
      rfl
    | placeholder expr => exact congrArg (_ :: ·) ih

/-- Without literal text the pieces are those of the fragments without literal text. -/
theorem outline_ofFragments (fragments : List Fragment) :
    (Piece.ofFragments fragments).map Piece.outline =
      Piece.ofFragments (fragments.map Fragment.outline) := by
  induction fragments with
  | nil => rfl
  | cons f rest ih =>
    rw [List.map_cons]
    cases f with
    | text s | comment s | separator s =>
      rw [Piece.ofFragments, outline_consLiteral, ih]
      rfl
    | quoted parts =>
      rw [Piece.ofFragments, outline_ofQuoted, ih]
      rfl
    | placeholder expr => exact congrArg (_ :: ·) ih

/-- The template of stretches is that of their outlines. -/
theorem templateAll_outline (start : Nat) (stretches : List Stretch) :
    PartBody.templateAll start ((stretches.map Stretch.outline).map Stretch.body) =
      PartBody.templateAll start (stretches.map Stretch.body) := by
  induction stretches generalizing start with
  | nil => rfl
  | cons stretch stretches ih =>
    have hpieces : stretch.outline.body.pieces = stretch.body.pieces.map Piece.outline :=
      (outline_ofFragments stretch.fragments).symm
    have htemplate : stretch.outline.body.template start = stretch.body.template start := by
      rw [← text_block, ← text_block, hpieces, slotsFrom_map_outline]
      rfl
    rw [List.map_cons, List.map_cons, List.map_cons, PartBody.templateAll, PartBody.templateAll,
      htemplate, hpieces, length_literals_map_outline, ih]

@[simp] theorem isSeparator_outline (f : Fragment) : f.outline.isSeparator = f.isSeparator := by
  cases f <;> rfl

theorem splitRuns_outline (fragments : List Fragment) :
    splitRuns (fragments.map Fragment.outline) =
      (splitRuns fragments).map (List.map Fragment.outline) := by
  induction fragments with
  | nil => rfl
  | cons f rest ih =>
    rw [List.map_cons, splitRuns, splitRuns, isSeparator_outline, ih]
    split
    · rfl
    · cases splitRuns rest <;> rfl

/-- What is kept of two lists alike is alike if the same is kept. -/
theorem map_filter_congr {α β : Type} {p : α → Bool} {f : α → β} {xs ys : List α}
    (hmap : xs.map f = ys.map f) (hkept : xs.map p = ys.map p) :
    (xs.filter fun x => !p x).map f = (ys.filter fun y => !p y).map f := by
  induction xs generalizing ys with
  | nil =>
    rw [List.map_nil, eq_comm, List.map_eq_nil_iff] at hmap
    rw [hmap]
  | cons x xs ih =>
    cases ys with
    | nil => cases hmap
    | cons y ys =>
      obtain ⟨hhead, htail⟩ := List.cons.inj hmap
      obtain ⟨hpx, hkept⟩ := List.cons.inj hkept
      rw [List.filter_cons, List.filter_cons, hpx]
      split
      · rw [List.map_cons, List.map_cons, hhead, ih htail hkept]
      · exact ih htail hkept

/-- Statements are alike if fragments are, and if the same runs are blank. -/
theorem statements_congr {fragments fragments' : List Fragment}
    (houtline : fragments.map Fragment.outline = fragments'.map Fragment.outline)
    (hblank : blankRuns fragments = blankRuns fragments') :
    (statements fragments).map (List.map Fragment.outline) =
      (statements fragments').map (List.map Fragment.outline) := by
  refine map_filter_congr ?_ hblank
  rw [← splitRuns_outline, ← splitRuns_outline, houtline]

theorem fragments_outline (t : Tree) : t.outline.fragments = t.fragments.map Fragment.outline := by
  rw [Tree.fragments, Tree.fragments, Tree.outline, List.filterMap_map, List.map_filterMap]
  congr 1
  funext node
  cases node <;> rfl

theorem codeBlocks_outline (t : Tree) : t.outline.codeBlocks = t.codeBlocks := by
  rw [Tree.codeBlocks, Tree.codeBlocks, Tree.outline, List.filterMap_map]
  congr 1
  funext node
  cases node <;> rfl

/-- Trees alike have fragments alike. -/
theorem fragments_congr {t t' : Tree} (h : t.outline = t'.outline) :
    t.fragments.map Fragment.outline = t'.fragments.map Fragment.outline := by
  rw [← fragments_outline, ← fragments_outline, h]

namespace Sections

/-- The sections without their literal text. -/
def outline (s : Sections) : Sections where
  configs := s.configs
  code := s.code
  statements := s.statements.map (List.map Fragment.outline)
  preOperations := s.preOperations.map (List.map Fragment.outline)
  postOperations := s.postOperations.map (List.map Fragment.outline)
  incrementalWhere := s.incrementalWhere.map (List.map Fragment.outline)
  inputs := s.inputs.map fun input => (input.1, input.2.map Fragment.outline)

theorem outline_addInput (name : String) (body : List Fragment)
    (inputs : List (String × List Fragment)) :
    (addInput name body inputs).map (fun input => (input.1, input.2.map Fragment.outline)) =
      addInput name (body.map Fragment.outline)
        (inputs.map fun input => (input.1, input.2.map Fragment.outline)) := by
  induction inputs with
  | nil => rfl
  | cons input inputs ih =>
    rw [List.map_cons, addInput, addInput]
    split
    · simp
    · rw [List.map_cons, ih]

variable {s s' t t' : Sections}

/-- Adding SQL alike to sections alike gives sections alike. -/
theorem outline_addSql {kind : SqlSection} {opening : String} {body body' : List Fragment}
    (hs : s.outline = s'.outline) (hbody : body.map Fragment.outline = body'.map Fragment.outline)
    (hblank : Node.blankRuns (.braced (.sql kind) opening (.sql body)) =
      Node.blankRuns (.braced (.sql kind) opening (.sql body')))
    (h : s.add (.braced (.sql kind) opening (.sql body)) = .ok t)
    (h' : s'.add (.braced (.sql kind) opening (.sql body')) = .ok t') :
    t.outline = t'.outline := by
  simp only [outline, Sections.mk.injEq] at hs ⊢
  obtain ⟨hconfigs, hcode, hstatements, hpre, hpost, hwhere, hinputs⟩ := hs
  cases kind with
  | preOperations =>
    cases h
    cases h'
    -- Which statements are blank is known of the nodes; it cannot be told from their outlines.
    refine ⟨hconfigs, hcode, hstatements, ?_, hpost, hwhere, hinputs⟩
    rw [List.map_append, List.map_append, hpre, statements_congr hbody hblank]
  | postOperations =>
    cases h
    cases h'
    refine ⟨hconfigs, hcode, hstatements, hpre, ?_, hwhere, hinputs⟩
    rw [List.map_append, List.map_append, hpost, statements_congr hbody hblank]
  | incrementalWhere =>
    simp only [add] at h h'
    -- Neither body holds a separator, or it would have been refused.
    split at h <;> cases h
    split at h' <;> cases h'
    refine ⟨hconfigs, hcode, hstatements, hpre, hpost, ?_, hinputs⟩
    have hold (o : Option (List Fragment)) :
        (o.map (List.map Fragment.outline)).getD [] = (o.getD []).map Fragment.outline :=
      Option.getD_map (List.map Fragment.outline) [] o
    rw [Option.map_some, Option.map_some, List.map_append, List.map_append, ← hold, ← hold,
      hwhere, hbody]
  | input =>
    simp only [add] at h h'
    split at h <;> cases h
    split at h' <;> cases h'
    refine ⟨hconfigs, hcode, hstatements, hpre, hpost, hwhere, ?_⟩
    rw [outline_addInput, outline_addInput, hbody, hinputs]

theorem outline_addCode {kind : CodeSection} {opening code : String} (hs : s.outline = s'.outline)
    (h : s.add (.braced (.code kind) opening (.code code)) = .ok t)
    (h' : s'.add (.braced (.code kind) opening (.code code)) = .ok t') :
    t.outline = t'.outline := by
  simp only [outline, Sections.mk.injEq] at hs ⊢
  obtain ⟨hconfigs, hcode, hstatements, hpre, hpost, hwhere, hinputs⟩ := hs
  cases kind with
  | config =>
    cases h
    cases h'
    exact ⟨congrArg (· ++ [code]) hconfigs, hcode, hstatements, hpre, hpost, hwhere, hinputs⟩
  | jinja =>
    cases h
    cases h'
    exact ⟨hconfigs, congrArg (· ++ [code]) hcode, hstatements, hpre, hpost, hwhere, hinputs⟩

/-- Adding nodes alike to sections alike gives sections alike. -/
theorem outline_add {node node' : Node} (hs : s.outline = s'.outline)
    (hnode : node.outline = node'.outline) (hblank : node.blankRuns = node'.blankRuns)
    (h : s.add node = .ok t) (h' : s'.add node' = .ok t') : t.outline = t'.outline := by
  -- An outline keeps the constructors of a node and of a body, so the second ones are of the same
  -- sort; and a body that does not belong to its keyword is refused.
  cases node with
  | fragment f =>
    cases node' with
    | fragment f' =>
      cases h
      cases h'
      exact hs
    | _ => cases hnode
  | codeBlock =>
    cases node' with
    | codeBlock =>
      cases h
      cases h'
      exact hs
    | _ => cases hnode
  | braced keyword opening body =>
    cases node' with
    | braced keyword' opening' body' =>
      obtain ⟨rfl, rfl, hbody⟩ := Node.braced.inj hnode
      cases body with
      | code code =>
        cases body' with
        | code code' =>
          obtain rfl := SectionBody.code.inj hbody
          cases keyword with
          | code kind => exact outline_addCode hs h h'
          | sql kind => cases kind <;> cases h
        | sql => cases hbody
      | sql body =>
        cases body' with
        | code => cases hbody
        | sql body' =>
          cases keyword with
          | code kind => cases kind <;> cases h
          | sql kind => exact outline_addSql hs (SectionBody.sql.inj hbody) hblank h h'
    | _ => cases hnode

/-- Adding nodes alike, one after the other. -/
theorem outline_addAll {nodes nodes' : List Node} (hs : s.outline = s'.outline)
    (hnodes : nodes.map Node.outline = nodes'.map Node.outline)
    (hblank : nodes.map Node.blankRuns = nodes'.map Node.blankRuns)
    (h : s.addAll nodes = .ok t) (h' : s'.addAll nodes' = .ok t') : t.outline = t'.outline := by
  induction nodes generalizing s s' nodes' with
  | nil =>
    rw [List.map_nil, eq_comm, List.map_eq_nil_iff] at hnodes
    subst hnodes
    cases h
    cases h'
    exact hs
  | cons node nodes ih =>
    cases nodes' with
    | nil => cases hnodes
    | cons node' nodes' =>
      obtain ⟨hnode, hnodes⟩ := List.cons.inj hnodes
      obtain ⟨hblanks, hblank⟩ := List.cons.inj hblank
      obtain ⟨next, hnext, h⟩ := exists_of_bind_eq_ok h
      obtain ⟨next', hnext', h'⟩ := exists_of_bind_eq_ok h'
      exact ih (outline_add hs hnode hblanks hnext hnext') hnodes hblank h h'

/-- Files alike have sections alike if the same of their statements are blank. -/
theorem outline_ofTree {tree tree' : Tree} (houtline : tree.outline = tree'.outline)
    (hblank : tree.blankRuns = tree'.blankRuns) (h : ofTree tree = .ok s)
    (h' : ofTree tree' = .ok s') : s.outline = s'.outline := by
  obtain ⟨hfragments, hnodes⟩ := List.cons.inj hblank
  obtain ⟨found, hfound, hs⟩ := exists_of_bind_eq_ok h
  obtain ⟨found', hfound', hs'⟩ := exists_of_bind_eq_ok h'
  have hadded : found.outline = found'.outline :=
    outline_addAll rfl (Tree.mk.inj houtline).2 hnodes hfound hfound'
  cases hs
  cases hs'
  have hstatements := statements_congr (fragments_congr houtline) hfragments
  simp only [outline, Sections.mk.injEq] at hadded ⊢
  exact ⟨hadded.1, hadded.2.1, hstatements, hadded.2.2.2⟩

theorem outline_queries (type : ConfigType) (s : Sections) :
    (s.queries type).map (List.map Fragment.outline) = s.outline.queries type := by
  have hfirst : [(s.statements.head?.getD []).map Fragment.outline] =
      [(s.statements.map (List.map Fragment.outline)).head?.getD []] := by
    cases s.statements <;> rfl
  cases type with
  | declaration | operations => rfl
  | _ => exact hfirst

theorem outline_stretches (type : ConfigType) (s : Sections) :
    (s.stretches type).map Stretch.outline = s.outline.stretches type := by
  simp only [stretches, List.map_append, ← outline_queries]
  simp [outline, Stretch.outline, Function.comp_def, Option.toList_map]

theorem sectionParts_eq (type : ConfigType) (s : Sections) :
    sectionParts type s = (s.stretches type).map Stretch.body := by
  have hqueries : queryParts type s.statements (s.statements.head?.getD []) =
      (s.queries type).map (PartBody.ofFragments .query) := by
    cases type <;> rfl
  simp [stretches, sectionParts, hqueries, Stretch.body, Function.comp_def]

end Sections

/-! ## §5 Programs -/

/-- The dialect of a file. -/
def dialectOf (path : String) : Dialect :=
  if hasEnding ".sqlx" path then .sectioned else .plain

/-- Is the SQL of the file split into statements? -/
def SplitsStatements (path : String) : Prop :=
  hasEnding ".ops.sql" path ∨ hasEnding ".sqlx" path

/-- The template is made of the code and of one block for each stretch; the blocks look up every
literal once, in order, and give the stretches back when they are filled. -/
structure ActionProgram.Renders (p : ActionProgram) (code : List String) (stretches : List Stretch)
    (blocks : List Block) : Prop where
  template : p.template =
    String.join (code.map fun code => Text.trim code ++ "\n") ++ String.join (blocks.map Block.text)
  indices : blocks.flatMap Block.indices = List.range p.literals.length
  fills : List.Forall₂ (Block.Fills p.literals) stretches blocks

/-- The code and the parts of the program are the given ones. -/
structure ActionProgram.MadeOf (p : ActionProgram) (code : List String)
    (stretches : List Stretch) : Prop where
  code : p.codeBlocks = code
  parts : p.parts = stretches.map Stretch.body

namespace ActionProgram.MadeOf

variable {p p' : ActionProgram} {code : List String} {stretches stretches' : List Stretch}

theorem renders (h : p.MadeOf code stretches) :
    p.Renders code stretches (blocksFrom 0 p.parts) where
  template := by
    rw [ActionProgram.template, codeLines, h.code, templateAll_eq_join_blocks]
  indices := by
    rw [indices_blocksFrom, List.range_eq_range']
    rfl
  fills := by
    have hfills := fills_blocksFrom [] stretches
    rw [← h.parts] at hfills
    exact hfills

/-- The template depends on the outline of the stretches only. -/
theorem template_eq (h : p.MadeOf code stretches) (h' : p'.MadeOf code stretches')
    (houtline : stretches.map Stretch.outline = stretches'.map Stretch.outline) :
    p.template = p'.template := by
  rw [ActionProgram.template, ActionProgram.template, codeLines, codeLines, h.code, h'.code,
    h.parts, h'.parts, ← templateAll_outline, houtline, templateAll_outline]

end ActionProgram.MadeOf

variable {path source source' : String} {p p' : ActionProgram} {tree tree' : Tree}

/-- A file of SQL is compiled as a file of its dialect. -/
theorem compile_cases {program : Program}
    (hpath : hasEnding ".sql" path ∨ hasEnding ".sqlx" path)
    (h : compile path source = .ok program) :
    ∃ p, program = .action p ∧
      (if hasEnding ".sqlx" path then compileSectioned path source else compilePlain path source) =
        .ok p := by
  -- The file is no script, so it has a program of its own.
  have hjinja : hasEnding ".jinja" path = false := by
    rcases hpath with hpath | hpath <;> exact hasEnding_eq_false hpath (by decide) (by decide)
  rw [compile, hjinja, if_neg Bool.false_ne_true] at h
  split at h
  · next hsqlx =>
    obtain ⟨p, hp, heq⟩ := exists_of_map_eq_ok h
    exact ⟨p, heq.symm, by rwa [if_pos hsqlx]⟩
  · next hsqlx =>
    rw [if_pos (hpath.resolve_right hsqlx)] at h
    obtain ⟨p, hp, heq⟩ := exists_of_map_eq_ok h
    exact ⟨p, heq.symm, by rwa [if_neg hsqlx]⟩

theorem queryParts_plainType (path : String) (fragments : List Fragment) :
    queryParts (plainType path) (statements fragments) fragments =
      (plainStretches path fragments).map Stretch.body := by
  unfold plainType plainStretches
  split
  -- A path that ends as those of assertions cannot end as those of operations.
  · next hassert =>
    rw [hasEnding_eq_false hassert (by decide) (by decide)]
    rfl
  · split
    · rw [List.map_map]
      rfl
    · rfl

theorem compilePlain_eq_ok (h : compilePlain path source = .ok p) :
    ∃ tree, lex .plain source = .ok tree ∧
      p.MadeOf tree.codeBlocks (plainStretches path tree.fragments) := by
  obtain ⟨tree, htree, h⟩ := exists_of_bind_eq_ok h
  cases h
  exact ⟨tree, eq_ok_of_mapError_eq_ok htree, rfl, queryParts_plainType path tree.fragments⟩

theorem compileSectioned_eq_ok (h : compileSectioned path source = .ok p) :
    ∃ tree s config, lex .sectioned source = .ok tree ∧ Sections.ofTree tree = .ok s ∧
      s.config = .ok config ∧ p.type = (config.bind (·.type)).getD (.dataset .table) ∧
      p.MadeOf s.code (s.stretches p.type) := by
  obtain ⟨tree, htree, h⟩ := exists_of_bind_eq_ok h
  obtain ⟨s, hs, h⟩ := exists_of_bind_eq_ok h
  obtain ⟨config, hconfig, h⟩ := exists_of_bind_eq_ok h
  dsimp only at h
  split at h
  · cases h
    exact ⟨tree, s, config, eq_ok_of_mapError_eq_ok htree, eq_ok_of_mapError_eq_ok hs, hconfig, rfl,
      rfl, Sections.sectionParts_eq _ s⟩
  · cases h

/-- What is left of a plain file without its code blocks are fragments. -/
theorem filter_nodes_of_scanFile {prev : Option Char} {cs : List Char} {nodes : List Node}
    (h : scanFile .plain prev cs = .ok nodes) :
    nodes.filter (!·.isCodeBlock) = (Tree.fragments ⟨.plain, nodes⟩).map .fragment := by
  fun_induction scanFile .plain prev cs generalizing nodes with
  | case1 => cases h; rfl
  | case2 => cases h
  | case3 prev c cs node rest hn ih =>
    obtain ⟨nodes', hs, heq⟩ := exists_of_map_eq_ok h
    cases heq
    cases findsNode_of_scanNode hn with
    | fragment => exact congrArg (_ :: ·) (ih hs)
    | codeBlock =>
      have htail := ih hs
      simpa [Node.isCodeBlock, Tree.fragments] using htail

theorem plainStretches_congr {fragments fragments' : List Fragment}
    (houtline : fragments.map Fragment.outline = fragments'.map Fragment.outline)
    (hblank : hasEnding ".ops.sql" path → blankRuns fragments = blankRuns fragments') :
    (plainStretches path fragments).map Stretch.outline =
      (plainStretches path fragments').map Stretch.outline := by
  unfold plainStretches
  split
  · next hops =>
    have hstatements := statements_congr houtline (hblank hops)
    have hstretches (runs : List (List Fragment)) :
        (runs.map (Stretch.mk .query)).map Stretch.outline =
          (runs.map (List.map Fragment.outline)).map (Stretch.mk .query) := by
      rw [List.map_map, List.map_map]
      rfl
    exact (hstretches _).trans ((congrArg _ hstatements).trans (hstretches _).symm)
  · exact congrArg (fun fragments => [Stretch.mk .query fragments]) houtline

/-- The same code and stretches alike, if the files are alike. -/
theorem template_eq_of_outline (hpath : hasEnding ".sql" path ∨ hasEnding ".sqlx" path)
    (h : compile path source = .ok (.action p)) (h' : compile path source' = .ok (.action p'))
    (hlex : lex (dialectOf path) source = .ok tree)
    (hlex' : lex (dialectOf path) source' = .ok tree') (houtline : tree.outline = tree'.outline)
    (hblank : SplitsStatements path → tree.blankRuns = tree'.blankRuns) :
    p.template = p'.template := by
  obtain ⟨_, heq, hp⟩ := compile_cases hpath h
  obtain ⟨_, heq', hp'⟩ := compile_cases hpath h'
  cases heq
  cases heq'
  by_cases hsqlx : hasEnding ".sqlx" path
  · rw [dialectOf, if_pos hsqlx] at hlex hlex'
    rw [if_pos hsqlx] at hp hp'
    obtain ⟨_, s, config, htree, hs, hconfig, htype, hmade⟩ := compileSectioned_eq_ok hp
    obtain ⟨_, s', config', htree', hs', hconfig', htype', hmade'⟩ := compileSectioned_eq_ok hp'
    cases hlex.symm.trans htree
    cases hlex'.symm.trans htree'
    have hsections := Sections.outline_ofTree houtline (hblank (.inr hsqlx)) hs hs'
    obtain ⟨hconfigs, hcode, -⟩ := Sections.mk.inj hsections
    -- The configuration is code, which is the same in both files.
    have htypes : p.type = p'.type := by
      rw [Sections.config, hconfigs, ← Sections.config, hconfig'] at hconfig
      cases hconfig
      rw [htype, htype']
    refine hmade.template_eq (hcode ▸ hmade') ?_
    rw [Sections.outline_stretches, Sections.outline_stretches, hsections, htypes]
  · rw [dialectOf, if_neg hsqlx] at hlex hlex'
    rw [if_neg hsqlx] at hp hp'
    obtain ⟨_, htree, hmade⟩ := compilePlain_eq_ok hp
    obtain ⟨_, htree', hmade'⟩ := compilePlain_eq_ok hp'
    cases hlex.symm.trans htree
    cases hlex'.symm.trans htree'
    have hcode : tree.codeBlocks = tree'.codeBlocks := by
      rw [← codeBlocks_outline, houtline, codeBlocks_outline]
    exact hmade.template_eq (hcode ▸ hmade') (plainStretches_congr (fragments_congr houtline)
      fun hops => (List.cons.inj (hblank (.inl hops))).1)

/-- The template of a file of SQL is made of its code and of one block for each stretch of its SQL.
The blocks hold no literal SQL, only look-ups of all literals in order, and give the stretches back
when they are filled.  Another file of the same path has the same template if it is the same but
for literal text and if, where SQL is split into statements, the same statements are blank. -/
theorem compile_template {program : Program}
    (hpath : hasEnding ".sql" path ∨ hasEnding ".sqlx" path)
    (h : compile path source = .ok program) :
    ∃ p tree code stretches blocks, program = .action p ∧ lex (dialectOf path) source = .ok tree ∧
      Cut path p.type tree code stretches ∧ p.Renders code stretches blocks ∧
      ∀ source' p' tree', compile path source' = .ok (.action p') →
        lex (dialectOf path) source' = .ok tree' → tree.outline = tree'.outline →
        (SplitsStatements path → tree.blankRuns = tree'.blankRuns) → p.template = p'.template := by
  obtain ⟨p, rfl, hp⟩ := compile_cases hpath h
  suffices hmade : ∃ tree code stretches, lex (dialectOf path) source = .ok tree ∧
      Cut path p.type tree code stretches ∧ p.MadeOf code stretches by
    obtain ⟨tree, code, stretches, hlex, hcut, hmade⟩ := hmade
    exact ⟨p, tree, code, stretches, _, rfl, hlex, hcut, hmade.renders,
      fun _ _ _ h' => template_eq_of_outline hpath h h' hlex⟩
  split at hp
  · next hsqlx =>
    obtain ⟨tree, s, config, hlex, hs, hconfig, htype, hmade⟩ := compileSectioned_eq_ok hp
    exact ⟨tree, _, _, by rwa [dialectOf, if_pos hsqlx],
      .sectioned (scanFile_of_lex hlex).2 hs, hmade⟩
  · next hsqlx =>
    obtain ⟨tree, hlex, hmade⟩ := compilePlain_eq_ok hp
    obtain ⟨hscan, hdialect⟩ := scanFile_of_lex hlex
    exact ⟨tree, _, _, by rwa [dialectOf, if_neg hsqlx],
      .plain hdialect (filter_nodes_of_scanFile hscan), hmade⟩

/-- The template of the action that a file is compiled to. -/
def templateOf? : Except ProgramError Program → Option String
  | .ok (.action p) => some p.template
  | _ => none

theorem exists_of_templateOf? {compiled : Except ProgramError Program} {template : String}
    (h : templateOf? compiled = some template) :
    ∃ p, compiled = .ok (.action p) ∧ p.template = template := by
  match compiled, h with
  | .ok (.action p), h => exact ⟨p, rfl, Option.some.inj h⟩

/-- Operations of two statements, and others with the same expression in the same place. -/
theorem compile_template_operations :
    let path := "definitions/a.ops.sql"
    let source := "select $\x7b a \x7d\n---\nselect 2"
    let source' := "drop $\x7b a \x7d\n \t---\ndelete"
    ∃ p p', compile path source = .ok (.action p) ∧ compile path source' = .ok (.action p') ∧
      p.template = p'.template ∧
      ∃ code stretches blocks, p.Renders code stretches blocks := by
  intro path source source'
  have hpath : hasEnding ".sql" path := by decide
  have hlex : lex (dialectOf path) source = .ok ⟨.plain,
      [ .fragment (.text "select "), .fragment (.placeholder " a "), .fragment (.text "\n"),
        .fragment (.separator "---"), .fragment (.text "\nselect 2") ]⟩ := by decide +kernel
  have hlex' : lex (dialectOf path) source' = .ok ⟨.plain,
      [ .fragment (.text "drop "), .fragment (.placeholder " a "), .fragment (.text "\n"),
        .fragment (.separator " \t---"), .fragment (.text "\ndelete") ]⟩ := by decide +kernel
  have hcompile : (templateOf? (compile path source)).isSome := by decide +kernel
  have hcompile' : (templateOf? (compile path source')).isSome := by decide +kernel
  obtain ⟨_, htemplate⟩ := Option.isSome_iff_exists.1 hcompile
  obtain ⟨_, htemplate'⟩ := Option.isSome_iff_exists.1 hcompile'
  obtain ⟨p, hp, -⟩ := exists_of_templateOf? htemplate
  obtain ⟨p', hp', -⟩ := exists_of_templateOf? htemplate'
  obtain ⟨_, tree, code, stretches, blocks, heq, htree, -, hrenders, hsame⟩ :=
    compile_template (.inl hpath) hp
  cases heq
  cases hlex.symm.trans htree
  have htemplates : p.template = p'.template :=
    hsame _ _ _ hp' hlex' (by decide) fun _ => by decide +kernel
  exact ⟨p, p', hp, hp', htemplates, code, stretches, blocks, hrenders⟩

/-- A statement of blanks has no block, so a template tells whether there is SQL at all. -/
theorem template_ne_of_blank_statement :
    let path := "definitions/a.ops.sql"
    let source := "select 1\n---\nselect 2"
    let source' := " \n---\nselect 2"
    ∃ p p' tree tree', compile path source = .ok (.action p) ∧
      compile path source' = .ok (.action p') ∧ lex .plain source = .ok tree ∧
      lex .plain source' = .ok tree' ∧ tree.outline = tree'.outline ∧ p.template ≠ p'.template := by
  intro path source source'
  have hlex : lex .plain source = .ok ⟨.plain,
      [ .fragment (.text "select 1\n"), .fragment (.separator "---"),
        .fragment (.text "\nselect 2") ]⟩ := by decide +kernel
  have hlex' : lex .plain source' = .ok ⟨.plain,
      [ .fragment (.text " \n"), .fragment (.separator "---"),
        .fragment (.text "\nselect 2") ]⟩ := by decide +kernel
  let block (index : String) : String :=
    "\x7b% filter section(\"query\") %\x7d\x7b\x7b __lit[" ++ index ++
      "] \x7d\x7d\x7b% endfilter %\x7d\n"
  have hcompile : templateOf? (compile path source) = some (block "0" ++ block "1") := by
    decide +kernel
  have hcompile' : templateOf? (compile path source') = some (block "0") := by decide +kernel
  obtain ⟨p, hp, htemplate⟩ := exists_of_templateOf? hcompile
  obtain ⟨p', hp', htemplate'⟩ := exists_of_templateOf? hcompile'
  refine ⟨p, p', _, _, hp, hp', hlex, hlex', rfl, ?_⟩
  rw [htemplate, htemplate']
  decide +kernel

end SqlWorkflow.Sql
