import SqlWorkflow.Graph.Basic
import SqlWorkflow.Proofs.Target.Order

/-!
# How a graph is put together

A graph lists its actions by kind, each kind sorted by target.

- **§1** The actions of one kind.
- **§2** No action is lost or added: the headers of a graph are those of the actions that it was
  made from (`headers_assemble_perm`), and so are its actions (`actions_assemble_perm`).
- **§3** If no two actions share a target, the order of the actions that a graph is made from does
  not show (`arranged_congr`).
-/

namespace SqlWorkflow

namespace Action

/-! ## §1 Actions of one kind -/

/-- The action as a table. -/
def table? : Action → Option Table
  | .table a => some a
  | _ => none

/-- The action as an operation. -/
def operation? : Action → Option Operation
  | .operation a => some a
  | _ => none

/-- The action as an assertion. -/
def assertion? : Action → Option Assertion
  | .assertion a => some a
  | _ => none

/-- The action as a declaration. -/
def declaration? : Action → Option Declaration
  | .declaration a => some a
  | _ => none

/-- The action as a notebook. -/
def notebook? : Action → Option Notebook
  | .notebook a => some a
  | _ => none

theorem header_of_table? {a : Action} {b : Table} (h : a.table? = some b) :
    b.header = a.header := by
  cases a <;> cases h
  rfl

theorem header_of_operation? {a : Action} {b : Operation} (h : a.operation? = some b) :
    b.header = a.header := by
  cases a <;> cases h
  rfl

theorem header_of_assertion? {a : Action} {b : Assertion} (h : a.assertion? = some b) :
    b.header = a.header := by
  cases a <;> cases h
  rfl

theorem header_of_declaration? {a : Action} {b : Declaration} (h : a.declaration? = some b) :
    b.header = a.header := by
  cases a <;> cases h
  rfl

theorem header_of_notebook? {a : Action} {b : Notebook} (h : a.notebook? = some b) :
    b.header = a.header := by
  cases a <;> cases h
  rfl

end Action

/-- The actions of one kind, sorted by what they have in common with others. -/
def arranged {α : Type} (kind? : Action → Option α) (header : α → ActionHeader)
    (actions : List Action) : List α :=
  (actions.filterMap kind?).mergeSort fun a b => (header a).le (header b)

namespace CompiledGraph

/-- All actions of a graph, kind by kind. -/
def actions (g : CompiledGraph) : List Action :=
  g.tables.map .table ++ g.operations.map .operation ++ g.assertions.map .assertion ++
    g.declarations.map .declaration ++ g.notebooks.map .notebook

variable {coreVersion : String} {config : ProjectConfig} {actions : List Action}
  {tests : List CompiledTest} {errors : GraphErrors}

theorem tables_assemble : (assemble coreVersion config actions tests errors).tables =
    arranged Action.table? Table.header actions :=
  rfl

theorem operations_assemble : (assemble coreVersion config actions tests errors).operations =
    arranged Action.operation? Operation.header actions :=
  rfl

theorem assertions_assemble : (assemble coreVersion config actions tests errors).assertions =
    arranged Action.assertion? Assertion.header actions :=
  rfl

theorem declarations_assemble : (assemble coreVersion config actions tests errors).declarations =
    arranged Action.declaration? Declaration.header actions :=
  rfl

theorem notebooks_assemble : (assemble coreVersion config actions tests errors).notebooks =
    arranged Action.notebook? Notebook.header actions :=
  rfl

/-! ## §2 No action is lost -/

theorem map_arranged_perm {α β : Type} (kind? : Action → Option α) (header : α → ActionHeader)
    (f : α → β) (actions : List Action) :
    ((arranged kind? header actions).map f).Perm ((actions.filterMap kind?).map f) :=
  (List.mergeSort_perm _ _).map f

/-- Every action is of exactly one kind, so what is said of all actions can be said kind by kind. -/
theorem kinds_perm {α : Type} (say : Action → α) (actions : List Action) :
    ((actions.filterMap Action.table?).map (fun a => say (.table a)) ++
      (actions.filterMap Action.operation?).map (fun a => say (.operation a)) ++
      (actions.filterMap Action.assertion?).map (fun a => say (.assertion a)) ++
      (actions.filterMap Action.declaration?).map (fun a => say (.declaration a)) ++
      (actions.filterMap Action.notebook?).map fun a => say (.notebook a)).Perm
      (actions.map say) := by
  induction actions with
  | nil => exact List.Perm.refl _
  | cons action actions ih =>
    have middle : ∀ {xs ys zs : List α} (said : α), (xs ++ ys).Perm zs →
        (xs ++ said :: ys).Perm (said :: zs) := fun said hperm =>
      List.perm_middle.trans (hperm.cons said)
    -- The new action stands at the head of the list of its own kind and in no other.
    cases action with
    | table a => exact ih.cons _
    | operation a =>
      simp only [List.append_assoc] at ih ⊢
      exact middle _ ih
    | assertion a =>
      rw [List.append_assoc, List.append_assoc] at ih ⊢
      exact middle _ ih
    | declaration a =>
      rw [List.append_assoc] at ih ⊢
      exact middle _ ih
    | notebook a => exact middle _ ih

/-- The headers of a graph are those of the actions that it is made from. -/
theorem headers_assemble_perm :
    (assemble coreVersion config actions tests errors).headers.Perm
      (actions.map Action.header) := by
  refine List.Perm.trans ?_ (kinds_perm Action.header actions)
  unfold headers
  rw [tables_assemble, operations_assemble, assertions_assemble, declarations_assemble,
    notebooks_assemble]
  exact ((((map_arranged_perm _ _ _ _).append (map_arranged_perm _ _ _ _)).append
    (map_arranged_perm _ _ _ _)).append (map_arranged_perm _ _ _ _)).append
    (map_arranged_perm _ _ _ _)

/-- The actions of a graph are those that it is made from. -/
theorem actions_assemble_perm :
    (assemble coreVersion config actions tests errors).actions.Perm actions := by
  have hkinds := kinds_perm id actions
  rw [List.map_id] at hkinds
  refine List.Perm.trans ?_ hkinds
  unfold CompiledGraph.actions
  rw [tables_assemble, operations_assemble, assertions_assemble, declarations_assemble,
    notebooks_assemble]
  exact ((((map_arranged_perm _ _ _ _).append (map_arranged_perm _ _ _ _)).append
    (map_arranged_perm _ _ _ _)).append (map_arranged_perm _ _ _ _)).append
    (map_arranged_perm _ _ _ _)

end CompiledGraph

/-! ## §3 The order of the actions does not show -/

namespace ActionHeader

/-- Targets first, then files. -/
def order (a b : ActionHeader) : Ordering :=
  (a.target.order b.target).then (compare a.fileName b.fileName)

instance : Std.TransCmp fun a b : ActionHeader => Target.order a.target b.target where
  eq_swap := Std.OrientedCmp.eq_swap
  isLE_trans := Std.TransCmp.isLE_trans

instance : Std.TransCmp order :=
  inferInstanceAs (Std.TransCmp
    (compareLex (fun a b : ActionHeader => Target.order a.target b.target) (compareOn fileName)))

theorem le_trans {a b c : ActionHeader} (hab : a.le b = true) (hbc : b.le c = true) :
    a.le c = true := by
  change (a.order c).isLE = true
  exact Std.TransCmp.isLE_trans hab hbc

theorem le_total (a b : ActionHeader) : (a.le b || b.le a) = true := by
  have hswap : b.order a = (a.order b).swap := Std.OrientedCmp.eq_swap
  change ((a.order b).isLE || (b.order a).isLE) = true
  rw [hswap]
  cases a.order b <;> rfl

theorem target_eq_of_le_of_le {a b : ActionHeader} (hab : a.le b = true) (hba : b.le a = true) :
    a.target = b.target := by
  have heq : a.order b = .eq := Std.OrientedCmp.isLE_antisymm hab hba
  exact Target.eq_of_order_eq (Ordering.then_eq_eq.1 heq).1

end ActionHeader

/-- If no two actions share a target, the actions of one kind are arranged in the same way
whatever their order was before. -/
theorem arranged_congr {α : Type} {kind? : Action → Option α} {header : α → ActionHeader}
    (hheader : ∀ {a b}, kind? a = some b → header b = a.header) {actions actions' : List Action}
    (hperm : actions.Perm actions') (hnodup : (actions.map (·.header.target)).Nodup) :
    arranged kind? header actions = arranged kind? header actions' := by
  refine mergeSort_eq_of_perm (fun _ _ _ => ActionHeader.le_trans)
    (fun _ _ => ActionHeader.le_total _ _) (fun b hb b' hb' hle hle' => ?_) (hperm.filterMap _)
  -- Two of a kind that are less or equal both ways have one target, so they are one action.
  obtain ⟨a, ha, hab⟩ := List.mem_filterMap.1 hb
  obtain ⟨a', ha', hab'⟩ := List.mem_filterMap.1 hb'
  have htarget := ActionHeader.target_eq_of_le_of_le hle hle'
  rw [hheader hab, hheader hab'] at htarget
  have heq : a = a' := List.inj_on_of_nodup_map hnodup ha ha' htarget
  exact Option.some.inj (hab.symm.trans (heq ▸ hab'))

end SqlWorkflow
