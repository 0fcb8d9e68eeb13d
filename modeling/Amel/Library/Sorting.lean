import Mathlib.Data.List.Sort

universe u

/-! A stable sort, and when it forgets the order of what it is given. -/

namespace Sorting

variable {α : Type u} {r : α → α → Prop} [DecidableRel r] {l shuffled : List α}

/-- Elements that are all tied stay in their order. -/
theorem filter_insertionSort {p : α → Bool} (tied : ∀ a b, p a = true → p b = true → r a b) (l : List α) :
    (l.insertionSort r).filter p = l.filter p := by
  have ordered : (l.filter p).Pairwise r := by
    refine List.Pairwise.imp_of_mem (fun first second _ => ?_) (List.pairwise_of_forall fun _ _ => trivial)
    exact tied _ _ (List.mem_filter.mp first).2 (List.mem_filter.mp second).2
  have kept := (List.sublist_insertionSort ordered List.filter_sublist).filter p
  rw [List.filter_filter, funext fun a => Bool.and_self (p a)] at kept
  exact (kept.eq_of_length ((List.perm_insertionSort r l).filter p).length_eq.symm).symm

/-- Of elements that are all tied, the first is the first of the sorted list. -/
theorem find?_insertionSort {p : α → Bool} (tied : ∀ a b, p a = true → p b = true → r a b) (l : List α) :
    (l.insertionSort r).find? p = l.find? p := by
  rw [← List.head?_filter, ← List.head?_filter, filter_insertionSort tied]

/-- Where only equal elements tie, the sorted list does not depend on the order. -/
theorem insertionSort_eq_of_perm [Std.Total r] [IsTrans α r]
    (antisymmetric : ∀ a ∈ l, ∀ b ∈ l, r a b → r b a → a = b) (same : shuffled.Perm l) :
    shuffled.insertionSort r = l.insertionSort r := by
  have first := (List.perm_insertionSort r shuffled).trans same
  have second := List.perm_insertionSort r l
  refine List.Perm.eq_of_pairwise (fun a b inFirst inSecond => ?_) (List.pairwise_insertionSort r shuffled)
    (List.pairwise_insertionSort r l) (first.trans second.symm)
  exact antisymmetric a (first.mem_iff.mp inFirst) b (second.mem_iff.mp inSecond)

end Sorting
