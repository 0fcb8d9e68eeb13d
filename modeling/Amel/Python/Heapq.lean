import Mathlib.Order.Lattice
import Mathlib.Data.List.Basic

universe u

namespace Python.Heapq

variable {α : Type u} [LinearOrder α]

/-- `_siftdown(heap, 0, pos)`: the item moves towards the root. -/
def siftdown (heap : Array α) (pos : Nat) : Array α :=
  if inside : 0 < pos ∧ pos < heap.size then
    if heap[pos] < heap[(pos - 1) / 2] then siftdown (heap.swap pos ((pos - 1) / 2)) ((pos - 1) / 2) else heap
  else heap
termination_by pos

/-- The smaller child, the left one of two that are equal in no order. -/
def smallerChild (heap : Array α) (pos : Nat) : Nat :=
  if right : 2 * pos + 2 < heap.size then
    if heap[2 * pos + 1] < heap[2 * pos + 2] then 2 * pos + 1 else 2 * pos + 2
  else 2 * pos + 1

theorem smallerChild_range {heap : Array α} {pos : Nat} (inside : 2 * pos + 1 < heap.size) :
    pos < smallerChild heap pos ∧ smallerChild heap pos < heap.size ∧ (smallerChild heap pos - 1) / 2 = pos := by
  unfold smallerChild
  split
  · split <;> omega
  · omega

/-- `_siftup(heap, pos)`: the item moves to a leaf, its smaller children one
place up each, and from there to where it belongs. -/
def siftup (heap : Array α) (pos : Nat) : Array α :=
  if inside : 2 * pos + 1 < heap.size then
    have _range := smallerChild_range inside
    siftup (heap.swap pos (smallerChild heap pos)) (smallerChild heap pos)
  else siftdown heap pos
termination_by heap.size - pos
decreasing_by
  simp only [Array.size_swap]
  omega

def heappush (heap : Array α) (item : α) : Array α := siftdown (heap.push item) heap.size

/-- `heappop(heap)`: the item returned and what is left; `none` where it
raises IndexError. -/
def heappop (heap : Array α) : Option (α × Array α) :=
  if nonempty : 0 < heap.size then
    let last := heap[heap.size - 1]
    let rest := heap.pop
    if more : 0 < rest.size then some (rest[0], siftup (rest.set 0 last) 0) else some (last, rest)
  else none

/-- The heap invariant: no item is smaller than its parent. -/
def Ordered (heap : Array α) : Prop := ∀ i, (inside : i < heap.size) → 0 < i → heap[(i - 1) / 2] ≤ heap[i]

/-- The order at all places but `pos`, whose children are not smaller than
its parent. -/
structure OrderedBut (heap : Array α) (pos : Nat) : Prop where
  pairs : ∀ i, (inside : i < heap.size) → 0 < i → i ≠ pos → heap[(i - 1) / 2] ≤ heap[i]
  grand : ∀ i, (inside : i < heap.size) → 0 < pos → (child : (i - 1) / 2 = pos) → 0 < i → heap[(pos - 1) / 2] ≤ heap[i]

/-- The same where the children of `pos` may also be smaller than its item. -/
structure OrderedAround (heap : Array α) (pos : Nat) : Prop where
  pairs : ∀ i, (inside : i < heap.size) → 0 < i → i ≠ pos → (i - 1) / 2 ≠ pos → heap[(i - 1) / 2] ≤ heap[i]
  grand : ∀ i, (inside : i < heap.size) → 0 < pos → (child : (i - 1) / 2 = pos) → 0 < i → heap[(pos - 1) / 2] ≤ heap[i]

variable {heap : Array α} {pos : Nat}

theorem siftdown_perm : (siftdown heap pos).Perm heap := by
  fun_induction siftdown heap pos with
  | case1 heap pos inside smaller ih => exact ih.trans (Array.swap_perm _ _)
  | case2 | case3 => exact .rfl

theorem siftup_perm : (siftup heap pos).Perm heap := by
  fun_induction siftup heap pos with
  | case1 heap pos inside range ih => exact ih.trans (Array.swap_perm _ _)
  | case2 => exact siftdown_perm

/-- One place up, the order is broken at the parent only. -/
theorem OrderedBut.up (ordered : OrderedBut heap pos) (inside : 0 < pos ∧ pos < heap.size)
    (smaller : heap[pos] < heap[(pos - 1) / 2]) :
    OrderedBut (heap.swap pos ((pos - 1) / 2)) ((pos - 1) / 2) := by
  constructor
  · intro i isPlace positive other
    rw [Array.size_swap] at isPlace
    have pair := ordered.pairs i isPlace positive
    simp only [Array.getElem_swap]
    by_cases here : i = pos
    · subst here
      rw [if_neg (by omega), if_pos rfl, if_pos rfl]
      exact smaller.le
    · rw [if_neg here, if_neg other]
      by_cases child : (i - 1) / 2 = pos
      · rw [if_pos child]
        exact ordered.grand i isPlace inside.1 child positive
      · rw [if_neg child]
        by_cases sibling : (i - 1) / 2 = (pos - 1) / 2
        · rw [if_pos sibling]
          simp only [sibling] at pair
          exact smaller.le.trans (pair here)
        · rw [if_neg sibling]
          exact pair here
  · intro i isPlace below child positive
    rw [Array.size_swap] at isPlace
    have pair := ordered.pairs i isPlace positive
    have above := ordered.pairs ((pos - 1) / 2) (by omega) below (by omega)
    simp only [Array.getElem_swap]
    rw [if_neg (by omega), if_neg (by omega)]
    by_cases here : i = pos
    · rw [if_pos here]
      exact above
    · rw [if_neg here, if_neg (by omega)]
      simp only [child] at pair
      exact above.trans (pair here)

theorem siftdown_ordered (ordered : OrderedBut heap pos) : Ordered (siftdown heap pos) := by
  fun_induction siftdown heap pos with
  | case1 heap pos inside smaller ih => exact ih (ordered.up inside smaller)
  | case2 heap pos inside notSmaller =>
    intro i isPlace positive
    by_cases here : i = pos
    · subst here
      exact not_lt.mp notSmaller
    · exact ordered.pairs i isPlace positive here
  | case3 heap pos «out» =>
    intro i isPlace positive
    exact ordered.pairs i isPlace positive (by rintro rfl; exact out ⟨positive, isPlace⟩)

theorem smallerChild_le {i : Nat} (inside : 2 * pos + 1 < heap.size) (isPlace : i < heap.size)
    (child : (i - 1) / 2 = pos) (positive : 0 < i) (isChild : smallerChild heap pos < heap.size) :
    heap[smallerChild heap pos] ≤ heap[i] := by
  have either : i = 2 * pos + 1 ∨ i = 2 * pos + 2 := by omega
  unfold smallerChild
  split
  · rename_i right
    split
    · rename_i smaller
      rcases either with rfl | rfl
      · exact le_rfl
      · exact le_of_lt smaller
    · rename_i notSmaller
      rcases either with rfl | rfl
      · exact not_lt.mp notSmaller
      · exact le_rfl
  · obtain rfl : i = 2 * pos + 1 := by omega
    exact le_rfl

/-- One place down to the smaller child, the order is broken around that one
only. -/
theorem OrderedAround.down {smaller : Nat} (ordered : OrderedAround heap pos) (isChild : smaller < heap.size)
    (lower : pos < smaller) (parent : (smaller - 1) / 2 = pos)
    (least : ∀ i, (isPlace : i < heap.size) → (i - 1) / 2 = pos → 0 < i → heap[smaller] ≤ heap[i]) :
    OrderedAround (heap.swap pos smaller) smaller := by
  constructor
  · intro i isPlace positive other notChild
    rw [Array.size_swap] at isPlace
    simp only [Array.getElem_swap]
    rw [if_neg other, if_neg notChild]
    by_cases here : i = pos
    · subst here
      rw [if_neg (by omega), if_pos rfl]
      exact ordered.grand smaller isChild positive parent (by omega)
    · rw [if_neg here]
      by_cases sibling : (i - 1) / 2 = pos
      · rw [if_pos sibling]
        exact least i isPlace sibling positive
      · rw [if_neg sibling]
        exact ordered.pairs i isPlace positive here sibling
  · intro i isPlace _ child positive
    rw [Array.size_swap] at isPlace
    have pair := ordered.pairs i isPlace positive (by omega) (by omega)
    simp only [Array.getElem_swap]
    rw [if_pos parent, if_neg (by omega), if_neg (by omega)]
    simpa only [child] using pair

theorem siftup_ordered (ordered : OrderedAround heap pos) : Ordered (siftup heap pos) := by
  fun_induction siftup heap pos with
  | case1 heap pos inside range ih =>
    exact ih (ordered.down range.2.1 range.1 range.2.2 fun i isPlace child positive =>
      smallerChild_le inside isPlace child positive range.2.1)
  | case2 heap pos leaf =>
    refine siftdown_ordered ⟨fun i isPlace positive other => ?_, ordered.grand⟩
    exact ordered.pairs i isPlace positive other (by omega)

/-- A push keeps the invariant and adds the item. -/
theorem heappush_spec (ordered : Ordered heap) (item : α) :
    Ordered (heappush heap item) ∧ (heappush heap item).toList.Perm (item :: heap.toList) := by
  refine ⟨siftdown_ordered ⟨fun i isPlace positive other => ?_, fun i isPlace _ child => ?_⟩, ?_⟩
  · rw [Array.size_push] at isPlace
    rw [Array.getElem_push_lt (by omega), Array.getElem_push_lt (by omega)]
    exact ordered i (by omega) positive
  · rw [Array.size_push] at isPlace
    omega
  · refine (Array.perm_iff_toList_perm.mp siftdown_perm).trans ?_
    rw [Array.toList_push]
    exact List.perm_append_singleton ..

/-- The item at the root is the least. -/
theorem Ordered.root_le (ordered : Ordered heap) (i : Nat) (isPlace : i < heap.size) : heap[0] ≤ heap[i] := by
  induction i using Nat.strongRecOn with
  | ind i ih =>
    by_cases root : i = 0
    · subst root
      exact le_rfl
    · exact le_trans (ih ((i - 1) / 2) (by omega) (by omega)) (ordered i isPlace (by omega))

omit [LinearOrder α] in
/-- With the last item at the root the others are as before. -/
theorem pop_perm (nonempty : 0 < heap.pop.size) :
    have _positive : 0 < heap.size := by rw [Array.size_pop] at nonempty; omega
    heap.toList.Perm (heap[0] :: (heap.pop.set 0 heap[heap.size - 1]).toList) := by
  obtain ⟨items⟩ := heap
  obtain ⟨first, others, rfl⟩ : ∃ first others, items = first :: others := by
    cases items with
    | nil => simp at nonempty
    | cons first others => exact ⟨first, others, rfl⟩
  obtain ⟨middle, last, rfl⟩ : ∃ middle last, others = middle ++ [last] := by
    rcases List.eq_nil_or_concat others with rfl | ⟨middle, last, rfl⟩
    · simp at nonempty
    · exact ⟨middle, last, List.concat_eq_append⟩
  have front : (first :: (middle ++ [last])).dropLast = first :: middle := by
    rw [← List.cons_append, List.dropLast_concat]
  simp [front]

/-- A pop takes the least item and keeps the invariant of the others. -/
theorem heappop_spec (ordered : Ordered heap) (nonempty : 0 < heap.size) :
    ∃ rest, heappop heap = some (heap[0], rest) ∧ Ordered rest ∧ heap.toList.Perm (heap[0] :: rest.toList) := by
  unfold heappop
  rw [dif_pos nonempty]
  dsimp only
  split
  · rename_i more
    refine ⟨_, by rw [Array.getElem_pop], siftup_ordered ⟨fun i isPlace positive other child => ?_, ?_⟩, ?_⟩
    · rw [Array.size_set] at isPlace
      have parentIsPlace : (i - 1) / 2 < heap.pop.size := by omega
      rw [Array.getElem_set_ne _ parentIsPlace child.symm, Array.getElem_set_ne _ isPlace other.symm, Array.getElem_pop,
        Array.getElem_pop]
      rw [Array.size_pop] at isPlace
      exact ordered i (by omega) positive
    · intro i _ impossible
      exact absurd impossible (Nat.lt_irrefl 0)
    · exact (pop_perm more).trans ((Array.perm_iff_toList_perm.mp siftup_perm).symm.cons _)
  · rename_i single
    rw [Array.size_pop] at single
    obtain ⟨items⟩ := heap
    have one : items.length = 1 := by
      simp only [List.size_toArray] at single nonempty
      omega
    obtain ⟨item, rfl⟩ := List.length_eq_one_iff.mp one
    exact ⟨#[], rfl, fun i isPlace => absurd isPlace (Nat.not_lt_zero i), .refl _⟩

end Python.Heapq
