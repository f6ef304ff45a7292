import Mathlib

/-!
# The first elements of a sorted list

A choice of the best elements sorts them by a comparison and takes as many as there are to be. What is taken
comes before what is left, and where the comparison tells all elements apart it comes strictly before.
-/

namespace Ranking

open Std

variable {α : Type} {list : List α} {one other : α} {count : Nat} {cmp : α → α → Ordering}

theorem isLE_or_isLE (cmp : α → α → Ordering) [OrientedCmp cmp] (one other : α) :
    ((cmp one other).isLE || (cmp other one).isLE) = true := by
  have swapped : cmp other one = (cmp one other).swap := OrientedCmp.eq_swap
  rw [swapped]
  cases cmp one other <;> rfl

theorem pairwise_mergeSort (cmp : α → α → Ordering) [TransCmp cmp] (list : List α) :
    (list.mergeSort fun one other => (cmp one other).isLE).Pairwise fun one other => (cmp one other).isLE :=
  List.pairwise_mergeSort (fun _ _ _ => TransCmp.isLE_trans) (isLE_or_isLE cmp) list

theorem pairwise_lt (sorted : list.Pairwise fun one other => (cmp one other).isLE)
    (apart : list.Pairwise fun one other => cmp one other ≠ .eq) :
    list.Pairwise fun one other => cmp one other = .lt := by
  refine (sorted.and apart).imp fun {one other} both => ?_
  cases compared : cmp one other with
  | lt => rfl
  | eq => exact absurd compared both.2
  | gt => simp [compared] at both

theorem rel_of_take {rel : α → α → Prop} (sorted : list.Pairwise rel) (taken : one ∈ list.take count)
    (listed : other ∈ list) (left : other ∉ list.take count) : rel one other := by
  rw [← List.take_append_drop count list] at sorted listed
  exact (List.pairwise_append.mp sorted).2.2 one taken other ((List.mem_append.mp listed).resolve_left left)

/-- The first elements are those with few smaller ones. -/
theorem mem_take_iff [OrientedCmp cmp] (sorted : list.Pairwise fun one other => cmp one other = .lt) :
    one ∈ list.take count ↔ one ∈ list ∧ (list.filter fun other => cmp other one = .lt).length < count := by
  induction list generalizing count with
  | nil => simp
  | cons first rest ih =>
    obtain ⟨least, sorted⟩ := List.pairwise_cons.mp sorted
    cases count with
    | zero => simp
    | succ count =>
      rw [List.take_succ_cons, List.mem_cons, List.mem_cons, ih sorted]
      by_cases same : one = first
      · subst same
        have none : (one :: rest).filter (fun other => cmp other one = .lt) = [] := by
          rw [List.filter_eq_nil_iff]
          intro other listed
          obtain rfl | later := List.mem_cons.mp listed
          · simp [(ReflCmp.compare_self : cmp other other = .eq)]
          · simp [OrientedCmp.gt_of_lt (least other later)]
        simp [none]
      · simp only [same, false_or]
        refine and_congr_right fun later => ?_
        simp [least one later]

end Ranking
