import SqlWorkflow.Proofs.Sql.Lossless
import SqlWorkflow.Sql.Program

/-!
# Files without code

A file without code is made of fragments that hold no placeholder.  Neighbouring literals are one
piece of a template, so all fragments of a part together are one literal, which is their source
(`holdsText_ofFragments`), and the fragments of a whole file are its text (`sourceOf_of_isPlain`).
-/

namespace SqlWorkflow.Sql

/-- Is the piece literal SQL? -/
def Piece.isLiteral : Piece → Bool
  | .literal _ => true
  | .code _ => false

/-! ## §1 Pieces of one text -/

/-- The pieces are one literal with the given characters, or none if there are no characters. -/
inductive HoldsText : List Piece → List Char → Prop where
  | nothing : HoldsText [] []
  | literal (sql : String) : HoldsText [.literal sql] sql.toList

namespace HoldsText

variable {pieces : List Piece} {cs : List Char}

theorem consLiteral (h : HoldsText pieces cs) (sql : String) :
    HoldsText (Piece.consLiteral sql pieces) (sql.toList ++ cs) := by
  cases h with
  | nothing =>
    rw [List.append_nil]
    exact .literal sql
  | literal rest =>
    rw [← String.toList_append]
    exact .literal (sql ++ rest)

theorem ofQuoted (h : HoldsText pieces cs) (parts : List QuotedPart)
    (hparts : (Fragment.quoted parts).hasCode = false) :
    HoldsText (Piece.ofQuoted parts pieces) (parts.flatMap QuotedPart.source ++ cs) := by
  induction parts with
  | nil => exact h
  | cons part parts ih =>
    simp only [Fragment.hasCode, List.any_cons, Bool.or_eq_false_iff] at hparts ih
    cases part with
    | text s =>
      rw [List.flatMap_cons, List.append_assoc]
      exact (ih hparts.2).consLiteral s
    | placeholder expr => cases hparts.1

theorem isLiteral (h : HoldsText pieces cs) : ∀ piece ∈ pieces, piece.isLiteral = true := by
  cases h with
  | nothing => simp
  | literal sql => simp [Piece.isLiteral]

theorem join_literals (h : HoldsText pieces cs) :
    String.join (Piece.literals pieces) = String.ofList cs := by
  cases h with
  | nothing => rfl
  | literal sql =>
    rw [String.ofList_toList]
    exact String.empty_append

theorem length_literals (h : HoldsText pieces cs) : (Piece.literals pieces).length ≤ 1 := by
  cases h with
  | nothing => exact Nat.zero_le 1
  | literal sql => exact Nat.le_refl 1

end HoldsText

/-- Fragments without code are one literal, their source. -/
theorem holdsText_ofFragments (fragments : List Fragment)
    (h : ∀ f ∈ fragments, f.hasCode = false) :
    HoldsText (Piece.ofFragments fragments) (sourceOf fragments) := by
  induction fragments with
  | nil => exact .nothing
  | cons f rest ih =>
    have hrest := ih fun f hf => h f (List.mem_cons_of_mem _ hf)
    have hf := h f List.mem_cons_self
    cases f with
    | text s => exact hrest.consLiteral s
    | comment s => exact hrest.consLiteral s
    | separator s => exact hrest.consLiteral s
    | quoted parts => exact hrest.ofQuoted parts hf
    | placeholder expr => cases hf

/-! ## §2 Whole files -/

variable {source : String} {tree : Tree}

/-- All nodes of a file without code are fragments. -/
theorem nodes_of_isPlain (h : tree.isPlain = true) : tree.nodes = tree.fragments.map .fragment := by
  obtain ⟨dialect, nodes⟩ := tree
  change nodes = List.map _ (List.filterMap _ nodes)
  induction nodes with
  | nil => rfl
  | cons node nodes ih =>
    simp only [Tree.isPlain, List.all_cons, Bool.and_eq_true] at h ih
    cases node with
    | fragment f => exact congrArg (Node.fragment f :: ·) (ih h.2)
    | codeBlock | braced => cases h.1

theorem hasCode_of_isPlain (h : tree.isPlain = true) : ∀ f ∈ tree.fragments, f.hasCode = false := by
  intro f hf
  have hnode : Node.fragment f ∈ tree.nodes := by
    rw [nodes_of_isPlain h]
    exact List.mem_map_of_mem hf
  simpa [Node.hasCode] using List.all_eq_true.1 h _ hnode

theorem codeBlocks_of_isPlain (h : tree.isPlain = true) : tree.codeBlocks = [] := by
  rw [Tree.codeBlocks, nodes_of_isPlain h, List.filterMap_map]
  exact List.filterMap_eq_nil_iff.2 fun _ _ => rfl

/-- The fragments of a file without code are its text. -/
theorem sourceOf_of_isPlain (hlex : lex .plain source = .ok tree) (h : tree.isPlain = true) :
    sourceOf tree.fragments = source.toList := by
  rw [← flatMap_source_of_lex hlex, nodes_of_isPlain h, List.flatMap_map]
  rfl

theorem splitRuns_eq_splitOnP (fragments : List Fragment) :
    splitRuns fragments = fragments.splitOnP Fragment.isSeparator := by
  induction fragments with
  | nil => exact List.splitOnP_nil.symm
  | cons f rest ih =>
    rw [splitRuns, List.splitOnP_cons_eq_if_modifyHead, ih]
    cases hruns : rest.splitOnP Fragment.isSeparator with
    | nil => exact absurd hruns (List.splitOnP_ne_nil _ _)
    | cons run runs => rfl

/-- The runs between separators are made of the fragments. -/
theorem mem_of_mem_splitRuns (fragments : List Fragment) :
    ∀ run ∈ splitRuns fragments, ∀ f ∈ run, f ∈ fragments := by
  induction fragments with
  | nil =>
    intro run hrun f hf
    rw [List.mem_singleton.1 hrun] at hf
    exact hf
  | cons g rest ih =>
    intro run hrun f hf
    rw [splitRuns] at hrun
    split at hrun
    · rcases List.mem_cons.1 hrun with rfl | hrun
      · cases hf
      · exact List.mem_cons_of_mem _ (ih run hrun f hf)
    · -- A fragment that is no separator goes to the first run of the rest.
      split at hrun
      · rw [List.mem_singleton.1 hrun] at hf
        exact List.mem_singleton.1 hf ▸ List.mem_cons_self
      · next first runs hruns =>
        rw [hruns] at ih
        rcases List.mem_cons.1 hrun with rfl | hrun
        · rcases List.mem_cons.1 hf with rfl | hf
          · exact List.mem_cons_self
          · exact List.mem_cons_of_mem _ (ih first List.mem_cons_self f hf)
        · exact List.mem_cons_of_mem _ (ih run (List.mem_cons_of_mem _ hrun) f hf)

/-- The statements of a file without code hold none. -/
theorem hasCode_of_mem_statements (h : tree.isPlain = true) :
    ∀ run ∈ statements tree.fragments, ∀ f ∈ run, f.hasCode = false :=
  fun run hrun f hf => hasCode_of_isPlain h f
    (mem_of_mem_splitRuns _ run (List.mem_filter.1 hrun).1 f hf)

end SqlWorkflow.Sql
