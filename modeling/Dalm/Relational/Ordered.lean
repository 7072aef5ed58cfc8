import Mathlib.Data.List.Sort

/-! The first row of a sorted selection. -/
namespace Relational
variable {α : Type} {r : α → α → Prop} [DecidableRel r] {p : α → Bool} {rows : List α} {row : α}

theorem head?_eq_none (none_ : ((rows.filter p).insertionSort r).head? = none) :
    ∀ row ∈ rows, p row = false := by
  have empty := List.head?_eq_none_iff.mp none_
  have perm := List.perm_insertionSort r (rows.filter p)
  rw [empty] at perm
  intro row member
  by_contra chosen
  have inside := List.mem_filter.mpr ⟨member,eq_true_of_ne_false chosen⟩
  rw [perm.symm.eq_nil] at inside
  cases inside

theorem head?_eq_some [Std.Total r] [IsTrans α r] (found : ((rows.filter p).insertionSort r).head? = some row) :
    row ∈ rows ∧ p row = true ∧ ∀ other ∈ rows, p other = true → r row other := by
  have perm := List.perm_insertionSort r (rows.filter p)
  have sorted := List.pairwise_insertionSort r (rows.filter p)
  obtain ⟨rest,same⟩ := List.head?_eq_some_iff.mp found
  rw [same] at perm sorted
  obtain ⟨member,chosen⟩ := List.mem_filter.mp (perm.mem_iff.mp List.mem_cons_self)
  refine ⟨member,chosen,fun other present chosen' => ?_⟩
  rcases List.mem_cons.mp (perm.mem_iff.mpr (List.mem_filter.mpr ⟨present,chosen'⟩)) with rfl | after
  · exact (Std.Total.total (r := r) other other).elim id id
  · exact (List.pairwise_cons.mp sorted).1 other after

end Relational
