import SqlWorkflow.Target.Basic
import Mathlib.Data.List.Sort

/-!
# The order of targets

Targets are ordered by database, schema and name.  The order is linear, so a list without
repetitions has exactly one sorted arrangement: sorting forgets in which order the targets were
collected.

Main statements: `Target.le` is a linear order (`Target.le_antisymm`, `Target.le_trans`,
`Target.le_total`), and sorting by a key sees a list only up to permutation
(`mergeSort_eq_of_perm`).
-/

namespace SqlWorkflow

/-! ## §1 The order is linear -/

/-- Of two elements one is less than or equal to the other. -/
theorem isLE_total {α : Type} (cmp : α → α → Ordering) [Std.OrientedCmp cmp] (a b : α) :
    ((cmp a b).isLE || (cmp b a).isLE) = true := by
  have hswap : cmp b a = (cmp a b).swap := Std.OrientedCmp.eq_swap
  rw [hswap]
  cases cmp a b <;> rfl

namespace Target

/-- The order of targets is the lexicographic one on the three components. -/
theorem order_eq_compareLex :
    order = compareLex (compareOn database) (compareLex (compareOn schema) (compareOn name)) :=
  rfl

instance : Std.TransCmp order :=
  order_eq_compareLex ▸ inferInstance

/-- Targets that compare equal are equal in every component. -/
theorem eq_of_order_eq {a b : Target} (h : a.order b = .eq) : a = b := by
  obtain ⟨hdatabase, hrest⟩ := Ordering.then_eq_eq.1 h
  obtain ⟨hschema, hname⟩ := Ordering.then_eq_eq.1 hrest
  -- Texts that compare equal are equal, and so are optional ones.
  have h₁ := Std.LawfulEqCmp.eq_of_compare hdatabase
  have h₂ := Std.LawfulEqCmp.eq_of_compare hschema
  have h₃ := Std.LawfulEqCmp.eq_of_compare hname
  cases a
  cases b
  simp_all

instance : Std.LawfulEqCmp order where
  eq_of_compare := eq_of_order_eq

@[simp] theorem le_refl (a : Target) : a.le a = true :=
  Std.ReflCmp.isLE_rfl

theorem le_trans {a b c : Target} (hab : a.le b = true) (hbc : b.le c = true) :
    a.le c = true :=
  Std.TransCmp.isLE_trans hab hbc

theorem le_total (a b : Target) : (a.le b || b.le a) = true :=
  isLE_total order a b

theorem le_antisymm {a b : Target} (hab : a.le b = true) (hba : b.le a = true) : a = b :=
  eq_of_order_eq (Std.OrientedCmp.isLE_antisymm hab hba)

end Target

/-! ## §2 Sorting forgets the order -/

/-- Two arrangements of one list are sorted to the same list, if elements that are less or equal
in both directions are equal. -/
theorem mergeSort_eq_of_perm {α : Type} {le : α → α → Bool} {l l' : List α}
    (trans : ∀ a b c, le a b = true → le b c = true → le a c = true)
    (total : ∀ a b, (le a b || le b a) = true)
    (antisymm : ∀ a ∈ l, ∀ b ∈ l, le a b = true → le b a = true → a = b) (h : l.Perm l') :
    l.mergeSort le = l'.mergeSort le := by
  -- Both are sorted arrangements of one list, and such a list has only one.
  have hperm : (l.mergeSort le).Perm (l'.mergeSort le) :=
    (List.mergeSort_perm l le).trans (h.trans (List.mergeSort_perm l' le).symm)
  refine hperm.eq_of_pairwise (fun a b ha hb => ?_) (List.pairwise_mergeSort trans total l)
    (List.pairwise_mergeSort trans total l')
  exact antisymm a (List.mem_mergeSort.1 ha) b (h.mem_iff.2 (List.mem_mergeSort.1 hb))

theorem Target.pairwise_mergeSort (l : List Target) :
    (l.mergeSort Target.le).Pairwise fun a b => a.le b = true := by
  apply List.pairwise_mergeSort
  · intro a b c
    exact Target.le_trans
  · exact Target.le_total

/-- Two arrangements of one list of targets are sorted to the same list. -/
theorem Target.mergeSort_eq_of_perm {l l' : List Target} (h : l.Perm l') :
    l.mergeSort Target.le = l'.mergeSort Target.le :=
  SqlWorkflow.mergeSort_eq_of_perm (fun _ _ _ => Target.le_trans) Target.le_total
    (fun _ _ _ _ => Target.le_antisymm) h

end SqlWorkflow
