import SqlWorkflow.Proofs.Sql.Openings
import Mathlib.Data.List.Forall2

/-!
# Taking a sectioned file apart

A file of the sectioned dialect is taken apart without loss (`ofTree_splitInto`).  What stands
outside the sections is cut into statements at the separators, and only blank statements are
dropped; so is what stands in each section of operations.  All sections of the other sorts are kept
whole, in the order of the file, those of inputs under their names.  A file is refused only if there
is a separator where statements make no sense.  A section would be malformed, too, if its body did
not belong to its keyword (`add_braced_eq_malformed_iff`), but it always does in a file
(`belongsTo_of_lex`).

The nodes are taken one by one.  Each of them adds to the parts what it holds, or breaks a rule
(`add_cases`), and so do all of them (`addAll_cases`); what the nodes of a file hold is said without
going from node to node (`Sections.extend`).

- **§1** Statements.
- **§2** The sections of a file.
- **§3** Inputs by name.
- **§4** One node after the other.
- **§5** Whole files.
-/

namespace SqlWorkflow.Sql

/-! ## §1 Statements -/

/-- Fragments are the runs with separators between them. -/
inductive Separated : List Fragment → List (List Fragment) → Prop where
  | last {run : List Fragment} (h : ∀ f ∈ run, f.isSeparator = false) : Separated run [run]
  | next {run rest : List Fragment} {runs : List (List Fragment)} {separator : Fragment}
    (h : ∀ f ∈ run, f.isSeparator = false) (hseparator : separator.isSeparator)
    (hrest : Separated rest runs) : Separated (run ++ separator :: rest) (run :: runs)

/-- The statements are what stands between separators, but for what is blank: separators, and
statements of nothing but blanks and comments, are all that is left out. -/
def IsCut (fragments : List Fragment) (statements : List (List Fragment)) : Prop :=
  ∃ runs, Separated fragments runs ∧
    statements = runs.filter fun run => !run.all Fragment.isBlank

/-- A fragment that is no separator belongs to the first run. -/
theorem Separated.cons {f : Fragment} {rest run : List Fragment} {runs : List (List Fragment)}
    (hf : f.isSeparator = false) (h : Separated rest (run :: runs)) :
    Separated (f :: rest) ((f :: run) :: runs) := by
  cases h with
  | last hrun => exact .last (List.forall_mem_cons.2 ⟨hf, hrun⟩)
  | next hrun hseparator hrest =>
    have hfirst : ∀ g ∈ f :: run, g.isSeparator = false := List.forall_mem_cons.2 ⟨hf, hrun⟩
    exact Separated.next hfirst hseparator hrest

theorem separated_splitRuns (fragments : List Fragment) :
    Separated fragments (splitRuns fragments) := by
  induction fragments with
  | nil => exact .last fun _ hf => absurd hf List.not_mem_nil
  | cons f rest ih =>
    rw [splitRuns]
    split
    · next hf =>
      -- A separator ends a run of nothing.
      exact Separated.next (fun _ hg => absurd hg List.not_mem_nil) hf ih
    · next hf =>
      split
      · next hnil =>
        rw [hnil] at ih
        cases ih
      · next run runs hruns =>
        rw [hruns] at ih
        exact ih.cons (Bool.eq_false_iff.2 hf)

theorem isCut_statements (fragments : List Fragment) : IsCut fragments (statements fragments) :=
  ⟨_, separated_splitRuns fragments, rfl⟩

/-! ## §2 Sections -/

/-- The code of the node, if it is a section of the given sort. -/
def Node.code? (kind : CodeSection) : Node → Option String
  | .braced keyword _ (.code code) => if keyword = .code kind then some code else none
  | _ => none

/-- The opening and the SQL of the node, if it is a section of the given sort. -/
def Node.sql? (kind : SqlSection) : Node → Option (String × List Fragment)
  | .braced keyword opening (.sql body) =>
    if keyword = .sql kind then some (opening, body) else none
  | _ => none

/-- Is the node a section? -/
def Node.isSection : Node → Bool
  | .braced _ _ _ => true
  | .fragment _ | .codeBlock _ _ _ => false

/-- The code of all sections of a sort, in order. -/
def codesIn (kind : CodeSection) (nodes : List Node) : List String :=
  nodes.filterMap (Node.code? kind)

/-- All sections of a sort, in order. -/
def sectionsIn (kind : SqlSection) (nodes : List Node) : List (String × List Fragment) :=
  nodes.filterMap (Node.sql? kind)

/-- The SQL of all sections of a sort, in order. -/
def bodiesIn (kind : SqlSection) (nodes : List Node) : List (List Fragment) :=
  (sectionsIn kind nodes).map (·.2)

/-- A separator stands in a section of the sort. -/
def HoldsSeparator (kind : SqlSection) (nodes : List Node) : Prop :=
  ∃ body ∈ bodiesIn kind nodes, ∃ f ∈ body, f.isSeparator

/-- All of the SQL, if there is a section at all. -/
def joined? : List (List Fragment) → Option (List Fragment)
  | [] => none
  | bodies => some bodies.flatten

variable {nodes nodes' done : List Node} {node : Node} {s s' : Sections} {rule : Violation}

@[simp] theorem codesIn_append (kind : CodeSection) (nodes nodes' : List Node) :
    codesIn kind (nodes ++ nodes') = codesIn kind nodes ++ codesIn kind nodes' :=
  List.filterMap_append

@[simp] theorem sectionsIn_append (kind : SqlSection) (nodes nodes' : List Node) :
    sectionsIn kind (nodes ++ nodes') = sectionsIn kind nodes ++ sectionsIn kind nodes' :=
  List.filterMap_append

@[simp] theorem bodiesIn_append (kind : SqlSection) (nodes nodes' : List Node) :
    bodiesIn kind (nodes ++ nodes') = bodiesIn kind nodes ++ bodiesIn kind nodes' := by
  rw [bodiesIn, sectionsIn_append, List.map_append, ← bodiesIn, ← bodiesIn]

theorem codesIn_singleton (kind : CodeSection) (node : Node) :
    codesIn kind [node] = (node.code? kind).toList := by
  cases hcode : node.code? kind <;> simp [codesIn, hcode]

theorem sectionsIn_singleton (kind : SqlSection) (node : Node) :
    sectionsIn kind [node] = (node.sql? kind).toList := by
  cases hsql : node.sql? kind <;> simp [sectionsIn, hsql]

theorem holdsSeparator_append {kind : SqlSection} :
    HoldsSeparator kind (nodes ++ nodes') ↔
      HoldsSeparator kind nodes ∨ HoldsSeparator kind nodes' := by
  simp only [HoldsSeparator, bodiesIn_append, List.mem_append, or_and_right, exists_or]

theorem joined?_concat (bodies : List (List Fragment)) (body : List Fragment) :
    joined? (bodies ++ [body]) = some ((joined? bodies).getD [] ++ body) := by
  cases bodies with
  | nil => simp [joined?]
  | cons first rest => simp [joined?]

/-- Bodies that are added one by one are joined. -/
theorem foldl_joined? (bodies more : List (List Fragment)) :
    more.foldl (fun whole body => some (whole.getD [] ++ body)) (joined? bodies) =
      joined? (bodies ++ more) := by
  induction more generalizing bodies with
  | nil => rw [List.foldl_nil, List.append_nil]
  | cons body more ih => rw [List.foldl_cons, ← joined?_concat, ih, List.append_assoc,
      List.singleton_append]

/-! ## §3 Inputs -/

/-- The bodies of all inputs of a name, one after the other. -/
def bodyOf (labelled : List (String × List Fragment)) (name : String) : List Fragment :=
  (labelled.filter fun input => input.1 = name).flatMap (·.2)

/-- The inputs are the labelled bodies, each name standing once with all of its bodies. -/
structure Grouped (labelled inputs : List (String × List Fragment)) : Prop where
  nodup : (inputs.map (·.1)).Nodup
  mem_names : ∀ name, name ∈ inputs.map (·.1) ↔ name ∈ labelled.map (·.1)
  body : ∀ input ∈ inputs, input.2 = bodyOf labelled input.1

variable {labelled inputs : List (String × List Fragment)}

theorem bodyOf_concat (name name' : String) (body : List Fragment) :
    bodyOf (labelled ++ [(name, body)]) name' =
      bodyOf labelled name' ++ if name = name' then body else [] := by
  by_cases hname : name = name' <;> simp [bodyOf, hname]

/-- A name that no input has has no body. -/
theorem bodyOf_of_not_mem {name : String} (h : name ∉ labelled.map (·.1)) :
    bodyOf labelled name = [] := by
  rw [bodyOf, List.filter_eq_nil_iff.2, List.flatMap_nil]
  intro input hinput hname
  exact h (List.mem_map.2 ⟨input, hinput, of_decide_eq_true hname⟩)

/-- A new name comes last, and one that is there stays where it is. -/
theorem map_fst_addInput (name : String) (body : List Fragment) :
    (addInput name body inputs).map (·.1) =
      if name ∈ inputs.map (·.1) then inputs.map (·.1) else inputs.map (·.1) ++ [name] := by
  induction inputs with
  | nil => rfl
  | cons input rest ih =>
    rw [addInput]
    split
    · next hname => simp [hname]
    · next hname =>
      simp only [List.map_cons, ih, List.mem_cons, Ne.symm hname, false_or]
      split <;> rfl

/-- An input has got the new body if and only if it has the name. -/
theorem body_of_mem_addInput {name : String} {body : List Fragment} {g : String → List Fragment}
    (hnodup : (inputs.map (·.1)).Nodup) (hbody : ∀ input ∈ inputs, input.2 = g input.1)
    (hnew : name ∉ inputs.map (·.1) → g name = []) :
    ∀ input ∈ addInput name body inputs,
      input.2 = g input.1 ++ if name = input.1 then body else [] := by
  induction inputs with
  | nil =>
    intro input hinput
    rw [List.mem_singleton.1 hinput]
    simp [hnew]
  | cons first rest ih =>
    rw [List.map_cons, List.nodup_cons] at hnodup
    have hfirst := hbody first List.mem_cons_self
    have hrest := fun input hinput => hbody input (List.mem_cons_of_mem _ hinput)
    intro input hinput
    rw [addInput] at hinput
    split at hinput
    · next hname =>
      subst hname
      rcases List.mem_cons.1 hinput with rfl | hinput
      · simp [hfirst]
      · -- No other input has the name.
        have hne : first.1 ≠ input.1 := fun heq =>
          hnodup.1 (heq ▸ List.mem_map_of_mem hinput)
        simp [hne, hrest input hinput]
    · next hname =>
      rcases List.mem_cons.1 hinput with rfl | hinput
      · simp [hfirst, Ne.symm hname]
      · refine ih hnodup.2 hrest (fun hnot => hnew ?_) input hinput
        simpa [Ne.symm hname] using hnot

theorem Grouped.addInput (h : Grouped labelled inputs) (name : String) (body : List Fragment) :
    Grouped (labelled ++ [(name, body)]) (Sql.addInput name body inputs) where
  nodup := by
    rw [map_fst_addInput]
    split
    · exact h.nodup
    · next hname =>
      -- The name comes last, behind names that are other ones.
      refine List.nodup_append.2 ⟨h.nodup, List.pairwise_singleton _ name, ?_⟩
      intro other hother new hnew heq
      exact hname (List.mem_singleton.1 hnew ▸ heq ▸ hother)
  mem_names other := by
    rw [map_fst_addInput, List.map_append, List.mem_append, ← h.mem_names]
    split
    · next hname =>
      simp only [List.map_cons, List.map_nil, List.mem_singleton]
      exact ⟨.inl, fun hother => hother.elim id (· ▸ hname)⟩
    · simp
  body input hinput := by
    rw [bodyOf_concat]
    refine body_of_mem_addInput h.nodup h.body (fun hname => bodyOf_of_not_mem ?_) input hinput
    rwa [← h.mem_names]

/-- Inputs that are added one by one are grouped. -/
theorem Grouped.foldl (h : Grouped labelled inputs) (more : List (String × List Fragment)) :
    Grouped (labelled ++ more)
      (more.foldl (fun inputs input => Sql.addInput input.1 input.2 inputs) inputs) := by
  induction more generalizing labelled inputs with
  | nil => rwa [List.append_nil, List.foldl_nil]
  | cons input more ih =>
    rw [List.foldl_cons, List.append_cons]
    exact ih (h.addInput input.1 input.2)

theorem grouped_nil : Grouped [] [] :=
  ⟨List.nodup_nil, fun _ => Iff.rfl, fun _ hinput => absurd hinput List.not_mem_nil⟩

/-! ## §4 One node after the other -/

/-- The name in the opening of an input. -/
def labelOf (opening : String) : String := String.ofList ((inputLabel? opening.toList).getD [])

/-- The SQL of all inputs with their names. -/
def labelledIn (nodes : List Node) : List (String × List Fragment) :=
  (sectionsIn .input nodes).map fun input => (labelOf input.1, input.2)

@[simp] theorem labelledIn_append (nodes nodes' : List Node) :
    labelledIn (nodes ++ nodes') = labelledIn nodes ++ labelledIn nodes' := by
  rw [labelledIn, sectionsIn_append, List.map_append, ← labelledIn, ← labelledIn]

/-- The parts with everything that stands in the sections among the nodes. -/
def Sections.extend (s : Sections) (nodes : List Node) : Sections where
  configs := s.configs ++ codesIn .config nodes
  code := s.code ++ codesIn .jinja nodes
  statements := s.statements
  preOperations := s.preOperations ++ (bodiesIn .preOperations nodes).flatMap Sql.statements
  postOperations := s.postOperations ++ (bodiesIn .postOperations nodes).flatMap Sql.statements
  incrementalWhere := (bodiesIn .incrementalWhere nodes).foldl
    (fun whole body => some (whole.getD [] ++ body)) s.incrementalWhere
  inputs := (labelledIn nodes).foldl (fun inputs input => addInput input.1 input.2 inputs) s.inputs

theorem Sections.extend_extend (s : Sections) (nodes nodes' : List Node) :
    (s.extend nodes).extend nodes' = s.extend (nodes ++ nodes') := by
  simp [extend]

/-- The rule is broken by a separator in one of the sections. -/
def Refuses (rule : Violation) (nodes : List Node) : Prop :=
  rule = .separatorInWhere ∧ HoldsSeparator .incrementalWhere nodes ∨
    rule = .separatorInInput ∧ HoldsSeparator .input nodes

/-- No section holds a separator where that would break a rule. -/
def Unbroken (nodes : List Node) : Prop :=
  ¬ HoldsSeparator .incrementalWhere nodes ∧ ¬ HoldsSeparator .input nodes

theorem Refuses.append (h : Refuses rule nodes ∨ Refuses rule nodes') :
    Refuses rule (nodes ++ nodes') := by
  simp only [Refuses, holdsSeparator_append] at h ⊢
  tauto

theorem unbroken_append : Unbroken (nodes ++ nodes') ↔ Unbroken nodes ∧ Unbroken nodes' := by
  simp only [Unbroken, holdsSeparator_append]
  tauto

/-- A section is malformed if its body does not belong to its keyword, and only then. -/
theorem add_braced_eq_malformed_iff (s : Sections) (keyword other : Keyword) (opening : String)
    (body : SectionBody) :
    s.add (.braced keyword opening body) = .error (.malformed other) ↔
      keyword = other ∧ ¬ body.BelongsTo keyword := by
  cases body with
  | code code =>
    cases keyword with
    | code kind =>
      have hbelongs : (SectionBody.code code).BelongsTo (.code kind) := .code code kind
      cases kind <;> simp [Sections.add, hbelongs]
    | sql kind =>
      have hapart : ¬ (SectionBody.code code).BelongsTo (.sql kind) := nofun
      cases kind <;> simp [Sections.add, hapart]
  | sql fragments =>
    cases keyword with
    | code kind =>
      have hapart : ¬ (SectionBody.sql fragments).BelongsTo (.code kind) := nofun
      cases kind <;> simp [Sections.add, hapart]
    | sql kind =>
      have hbelongs : (SectionBody.sql fragments).BelongsTo (.sql kind) := .sql fragments kind
      cases kind with
      | preOperations | postOperations => simp [Sections.add, hbelongs]
      | incrementalWhere | input =>
        -- These sections may be refused, but for another reason.
        simp only [Sections.add, hbelongs, not_true_eq_false, and_false]
        split <;> simp

/-- One more node: what it holds is added, unless it breaks a rule. -/
theorem add_cases (s : Sections) (hnode : node.IsSectioned) :
    s.add node = .ok (s.extend [node]) ∧ Unbroken [node] ∨
      ∃ rule, s.add node = .error rule ∧ Refuses rule [node] := by
  simp only [Sections.extend, Unbroken, Refuses, HoldsSeparator, labelledIn, bodiesIn,
    codesIn_singleton, sectionsIn_singleton]
  cases node with
  | fragment | codeBlock =>
    exact .inl ⟨by simp [Sections.add, Node.code?, Node.sql?], by simp [Node.sql?]⟩
  | braced keyword opening body =>
    cases hnode.1 with
    | code code kind =>
      refine .inl ⟨?_, by simp [Node.sql?]⟩
      cases kind <;> simp [Sections.add, Node.code?, Node.sql?]
    | sql body kind =>
      cases kind with
      | preOperations | postOperations =>
        exact .inl ⟨by simp [Sections.add, Node.code?, Node.sql?], by simp [Node.sql?]⟩
      | incrementalWhere =>
        -- A section that is one text is refused if there is a separator in it.
        by_cases hbody : body.any Fragment.isSeparator
        · exact .inr ⟨.separatorInWhere, by simp [Sections.add, hbody],
            .inl ⟨rfl, by simpa [Node.sql?] using hbody⟩⟩
        · exact .inl ⟨by simp [Sections.add, hbody, Node.code?, Node.sql?],
            by simpa [Node.sql?] using hbody⟩
      | input =>
        by_cases hbody : body.any Fragment.isSeparator
        · exact .inr ⟨.separatorInInput, by simp [Sections.add, hbody],
            .inr ⟨rfl, by simpa [Node.sql?] using hbody⟩⟩
        · exact .inl ⟨by simp [Sections.add, hbody, Node.code?, Node.sql?, labelOf],
            by simpa [Node.sql?] using hbody⟩

/-- All nodes: what they hold is added, unless one of them breaks a rule. -/
theorem addAll_cases (s : Sections) (hnodes : ∀ node ∈ nodes, node.IsSectioned) :
    s.addAll nodes = .ok (s.extend nodes) ∧ Unbroken nodes ∨
      ∃ rule, s.addAll nodes = .error rule ∧ Refuses rule nodes := by
  induction nodes generalizing s with
  | nil =>
    refine .inl ⟨?_, by simp [Unbroken, HoldsSeparator, bodiesIn, sectionsIn]⟩
    simp [Sections.addAll, Sections.extend, codesIn, labelledIn, bodiesIn, sectionsIn]
  | cons node rest ih =>
    obtain ⟨hfirst, hothers⟩ := List.forall_mem_cons.1 hnodes
    rw [← List.singleton_append]
    rcases add_cases s hfirst with ⟨hadd, hnode⟩ | ⟨rule, hadd, hrefuses⟩
    · have hrun : s.addAll ([node] ++ rest) = (s.extend [node]).addAll rest := by
        rw [List.singleton_append, Sections.addAll, hadd]
        rfl
      -- The other nodes are added to what this one has added.
      rw [hrun, ← Sections.extend_extend]
      rcases ih (s.extend [node]) hothers with ⟨hrest, hunbroken⟩ | ⟨rule, hrest, hrefuses⟩
      · exact .inl ⟨hrest, unbroken_append.2 ⟨hnode, hunbroken⟩⟩
      · exact .inr ⟨rule, hrest, .append (.inr hrefuses)⟩
    · -- The first node that breaks a rule is the last one that is looked at.
      refine .inr ⟨rule, ?_, .append (.inl hrefuses)⟩
      rw [List.singleton_append, Sections.addAll, hadd]
      rfl

/-! ## §5 Whole files -/

/-- The sections of a sort are cut into statements, each for itself, in order. -/
def Operations (kind : SqlSection) (nodes : List Node) (operations : List (List Fragment)) : Prop :=
  ∃ cuts, List.Forall₂ IsCut (bodiesIn kind nodes) cuts ∧ operations = cuts.flatten

/-- The bodies of all inputs, in order, with the names that stand in their openings. -/
def Labelled (nodes : List Node) (labelled : List (String × List Fragment)) : Prop :=
  List.Forall₂ (fun input named =>
    Opening (.sql .input) (some named.1.toList) input.1.toList ∧ named.2 = input.2)
    (sectionsIn .input nodes) labelled

/-- The file is taken apart into the parts, and nothing is lost. -/
structure Tree.SplitInto (t : Tree) (s : Sections) : Prop where
  configs : s.configs = codesIn .config t.nodes
  code : s.code = codesIn .jinja t.nodes
  /-- What stands outside the sections. -/
  statements : ∃ fragments, t.nodes.filter (fun node => !node.isSection) =
    fragments.map .fragment ∧ IsCut fragments s.statements
  preOperations : Operations .preOperations t.nodes s.preOperations
  postOperations : Operations .postOperations t.nodes s.postOperations
  incrementalWhere : s.incrementalWhere = joined? (bodiesIn .incrementalWhere t.nodes)
  inputs : ∃ labelled, Labelled t.nodes labelled ∧ Grouped labelled s.inputs
  names : ∀ name ∈ s.inputs.map (·.1),
    name ≠ "" ∧ ∀ c ∈ name.toList, c.isAlphanum ∨ c ∈ ['_', '.', '-']

theorem operations_flatMap_statements (kind : SqlSection) (nodes : List Node) :
    Operations kind nodes ((bodiesIn kind nodes).flatMap statements) := by
  refine ⟨(bodiesIn kind nodes).map statements, ?_, rfl⟩
  rw [List.forall₂_map_right_iff, List.forall₂_same]
  exact fun body _ => isCut_statements body

/-- In a sectioned file every input has got the name in its opening. -/
theorem labelled_labelledIn (h : ∀ node ∈ nodes, node.IsSectioned) :
    Labelled nodes (labelledIn nodes) := by
  rw [Labelled, labelledIn, List.forall₂_map_right_iff, List.forall₂_same]
  rintro ⟨opening, body⟩ hinput
  obtain ⟨node, hnode, hsql⟩ := List.mem_filterMap.1 hinput
  cases node with
  | fragment | codeBlock => cases hsql
  | braced keyword opening' body' =>
    cases body' with
    | code => cases hsql
    | sql body' =>
      obtain ⟨rfl, hsame⟩ := Option.ite_none_right_eq_some.1 hsql
      cases hsame
      obtain ⟨-, name?, hopening⟩ := h _ hnode
      obtain ⟨name, rfl, -⟩ := hopening.exists_name
      refine ⟨?_, rfl⟩
      rw [labelOf, hopening.inputLabel?_eq, Option.getD_some, String.toList_ofList]
      exact hopening

theorem fragments_of_isSectioned (h : ∀ node ∈ nodes, node.IsSectioned) (dialect : Dialect) :
    nodes.filter (fun node => !node.isSection) =
      (Tree.mk dialect nodes).fragments.map .fragment := by
  induction nodes with
  | nil => rfl
  | cons node rest ih =>
    obtain ⟨hnode, hrest⟩ := List.forall_mem_cons.1 h
    cases node with
    | fragment f => exact congrArg (Node.fragment f :: ·) (ih hrest)
    | codeBlock => exact hnode.elim
    | braced => exact ih hrest

/-- The names of labelled inputs are labels. -/
theorem Labelled.isLabel {labelled : List (String × List Fragment)} (h : Labelled nodes labelled) :
    ∀ name ∈ labelled.map (·.1),
      name ≠ "" ∧ ∀ c ∈ name.toList, c.isAlphanum ∨ c ∈ ['_', '.', '-'] := by
  rw [List.forall_mem_map]
  -- The induction is on the inputs of the file, and the names go along with them.
  unfold Labelled at h
  generalize sectionsIn .input nodes = inputs at h
  induction h with
  | nil => exact fun _ hnamed => absurd hnamed List.not_mem_nil
  | cons hinput _ ih =>
    refine List.forall_mem_cons.2 ⟨?_, ih⟩
    obtain ⟨name, heq, hne, hlabel⟩ := hinput.1.exists_name
    cases heq
    refine ⟨fun hempty => hne (by rw [hempty]; rfl), fun c hc => ?_⟩
    simpa [isLabelChar, or_assoc, or_left_comm, or_comm] using hlabel c hc

/-- A refused file is never said to have a malformed section. -/
theorem Refuses.message_ne (h : Refuses rule nodes) (keyword : Keyword) :
    rule.message ≠ "Malformed " ++ keyword.text ++ " block" := by
  rcases h with ⟨rfl, -⟩ | ⟨rfl, -⟩ <;> rcases keyword with (_ | _) | (_ | _ | _ | _) <;> decide

/-- A file of the sectioned dialect is taken apart without loss, unless there is a separator where
statements make no sense; then that is why it is refused. -/
theorem ofTree_splitInto {source : String} {tree : Tree} (h : lex .sectioned source = .ok tree) :
    (∃ s, Sections.ofTree tree = .ok s ∧ tree.SplitInto s ∧ Unbroken tree.nodes) ∨
      ∃ rule, Sections.ofTree tree = .error rule ∧ Refuses rule tree.nodes ∧
        ∀ keyword : Keyword, rule.message ≠ "Malformed " ++ keyword.text ++ " block" := by
  have hsectioned := isSectioned_of_lex h
  rcases addAll_cases {} hsectioned with ⟨hadd, hunbroken⟩ | ⟨rule, hadd, hrefuses⟩
  · have hlabelled := labelled_labelledIn hsectioned
    have hgrouped := grouped_nil.foldl (labelledIn tree.nodes)
    refine .inl ⟨_, by rw [Sections.ofTree, hadd]; rfl, ?_, hunbroken⟩
    exact
      { configs := rfl
        code := rfl
        statements :=
          ⟨_, fragments_of_isSectioned hsectioned tree.dialect, isCut_statements _⟩
        preOperations := operations_flatMap_statements _ _
        postOperations := operations_flatMap_statements _ _
        incrementalWhere := foldl_joined? [] _
        inputs := ⟨_, hlabelled, hgrouped⟩
        names := fun name hname => hlabelled.isLabel name ((hgrouped.mem_names name).1 hname) }
  · exact .inr ⟨rule, by rw [Sections.ofTree, hadd]; rfl, hrefuses, hrefuses.message_ne⟩

/-- A repeated input, a blank statement and a statement around sections: the bodies of the input are
joined, the blank statement is dropped, and the other one goes on behind the sections. -/
theorem ofTree_splitInto_interleaved :
    let source := "input \"a.b\" \x7b x \x7d\nselect 1\n---\n /* c */ \n---\njinja \x7b z \x7d" ++
      "input  \"a.b\"\x7b y \x7d select 2\npre_operations \x7b p\n---\nq \x7d"
    ∃ tree s, lex .sectioned source = .ok tree ∧ Sections.ofTree tree = .ok s ∧
      tree.SplitInto s ∧ s.inputs = [("a.b", [.text " x ", .text " y "])] ∧
      s.statements = [[.text "\nselect 1\n"], [.text "\n", .text " select 2\n"]] ∧
      s.preOperations = [[.text " p\n"], [.text "\nq "]] := by
  intro source
  obtain ⟨tree, hlex, hparts⟩ : ∃ tree, lex .sectioned source = .ok tree ∧
      Sections.ofTree tree = .ok
        { code := [" z "]
          statements := [[.text "\nselect 1\n"], [.text "\n", .text " select 2\n"]]
          preOperations := [[.text " p\n"], [.text "\nq "]]
          inputs := [("a.b", [.text " x ", .text " y "])] } := by
    refine ⟨⟨.sectioned,
      [ .braced (.sql .input) "input \"a.b\" \x7b" (.sql [.text " x "]),
        .fragment (.text "\nselect 1\n"),
        .fragment (.separator "---"),
        .fragment (.text "\n "),
        .fragment (.comment "/* c */"),
        .fragment (.text " \n"),
        .fragment (.separator "---"),
        .fragment (.text "\n"),
        .braced (.code .jinja) "jinja \x7b" (.code " z "),
        .braced (.sql .input) "input  \"a.b\"\x7b" (.sql [.text " y "]),
        .fragment (.text " select 2\n"),
        .braced (.sql .preOperations) "pre_operations \x7b"
          (.sql [.text " p\n", .separator "---", .text "\nq "]) ]⟩, ?_, ?_⟩
    · decide +kernel
    · decide +kernel
  rcases ofTree_splitInto hlex with ⟨s, hs, hsplit, -⟩ | ⟨rule, herror, -⟩
  · cases hs.symm.trans hparts
    exact ⟨_, _, hlex, hparts, hsplit, rfl, rfl, rfl⟩
  · cases herror.symm.trans hparts

end SqlWorkflow.Sql
