import Mathlib.Data.List.Sort
import Mathlib.Data.PNat.Basic

universe u v

/-- A sort by decreasing key, rows of one key in an order of its own. -/
structure Descending {Row : Type u} {Key : Type v} [LE Key] (key : Row → Key) where
  sort : List Row → List Row
  perm : ∀ table, (sort table).Perm table
  ordered : ∀ table, (sort table).Pairwise fun a b => key b ≤ key a

namespace Descending

variable {Row : Type u} {Key : Type v} [LinearOrder Key] {key : Row → Key}

/-- `ORDER BY key DESC`, and `LIMIT limit` when there is one. -/
def newest (order : Descending key) (limit : Option ℕ+) (table : List Row) : List Row :=
  limit.elim (order.sort table) fun n => (order.sort table).take n

/-- Rows of one key stay in the order of the table. -/
def stable (key : Row → Key) : Descending key where
  sort := List.insertionSort fun a b => key b ≤ key a
  perm := List.perm_insertionSort _
  ordered table := by
    have total : Std.Total fun a b : Row => key b ≤ key a := ⟨fun a b => le_total (key b) (key a)⟩
    have trans : IsTrans Row fun a b => key b ≤ key a := ⟨fun _ _ _ ab bc => bc.trans ab⟩
    exact List.pairwise_insertionSort _ table

/-- Any order of a table that decreases is one that a sort may give it. -/
def giving [DecidableEq Row] (table sorted : List Row) (perm : sorted.Perm table)
    (ordered : sorted.Pairwise fun a b => key b ≤ key a) : Descending key where
  sort rows := if rows = table then sorted else (stable key).sort rows
  perm rows := by
    split
    · rename_i same
      exact same ▸ perm
    · exact (stable key).perm rows
  ordered rows := by
    split
    · exact ordered
    · exact (stable key).ordered rows

theorem giving_sort [DecidableEq Row] {table sorted : List Row} (perm : sorted.Perm table)
    (ordered : sorted.Pairwise fun a b => key b ≤ key a) : (giving table sorted perm ordered).sort table = sorted :=
  if_pos rfl

section

variable (order : Descending key) {limit : Option ℕ+} {table : List Row}

theorem mem_of_mem_newest {row : Row} (member : row ∈ order.newest limit table) : row ∈ table := by
  cases limit with
  | none => exact (order.perm table).mem_iff.mp member
  | some n => exact (order.perm table).mem_iff.mp (List.mem_of_mem_take member)

/-- The limit never cuts off the newest row. -/
theorem exists_newer (limit : Option ℕ+) {row : Row} (member : row ∈ table) :
    ∃ newer ∈ order.newest limit table, key row ≤ key newer := by
  have sorted := order.ordered table
  have inSort := (order.perm table).mem_iff.mpr member
  cases shape : order.sort table with
  | nil => rw [shape] at inSort; cases inSort
  | cons first rest =>
    rw [shape] at sorted inSort
    have first_newest : first ∈ order.newest limit table := by
      cases limit with
      | none =>
        rw [newest, Option.elim_none, shape]
        exact List.mem_cons_self ..
      | some n =>
        obtain ⟨k, successor⟩ := Nat.exists_eq_succ_of_ne_zero n.ne_zero
        have taken : order.newest (some n) table = first :: rest.take k := by
          rw [newest, Option.elim_some, shape, successor, List.take_succ_cons]
        exact taken ▸ List.mem_cons_self ..
    refine ⟨first, first_newest, ?_⟩
    rcases List.mem_cons.mp inSort with rfl | later
    · exact le_refl _
    · exact List.rel_of_pairwise_cons sorted later

theorem newest_of_fits (fits : ∀ n ∈ limit, table.length ≤ n) : (order.newest limit table).Perm table := by
  cases limit with
  | none => exact order.perm table
  | some n =>
    have length : (order.sort table).length ≤ n := (order.perm table).length_eq ▸ fits n rfl
    rw [newest, Option.elim_some, List.take_of_length_le length]
    exact order.perm table

end

/-- In decreasing order the rows from a cutoff on come first. -/
theorem filter_eq_take {sorted : List Row} (ordered : sorted.Pairwise fun a b => key b ≤ key a) (cutoff : Key) :
    sorted.filter (cutoff ≤ key ·) = sorted.take (sorted.filter (cutoff ≤ key ·)).length := by
  induction ordered with
  | nil => rfl
  | @cons first rest older _ ih =>
    by_cases reaches : cutoff ≤ key first
    · rw [List.filter_cons_of_pos (by simpa using reaches), List.length_cons, List.take_succ_cons, ← ih]
    · have nothing : rest.filter (cutoff ≤ key ·) = [] := by
        refine List.filter_eq_nil_iff.mpr fun row member => ?_
        have below := older row member
        simp only [decide_eq_true_eq, not_le] at reaches ⊢
        exact below.trans_lt reaches
      rw [List.filter_cons_of_neg (by simpa using reaches), nothing, List.length_nil, List.take_zero]

/-- Rows from a cutoff on that fill the limit are the newest ones. -/
theorem newest_of_cutoff (order : Descending key) {n : ℕ+} {table : List Row} {cutoff : Key}
    (fills : (table.filter (cutoff ≤ key ·)).length = n) :
    (order.newest (some n) table).Perm (table.filter (cutoff ≤ key ·)) := by
  have perm := (order.perm table).filter (cutoff ≤ key ·)
  have first := filter_eq_take (order.ordered table) cutoff
  rw [perm.length_eq, fills] at first
  rw [newest, Option.elim_some, ← first]
  exact perm

theorem split_at {rows : List Row} {n : Nat} (positive : 0 < n) (overflow : n < rows.length) :
    ∃ front last next rest, rows = front ++ last :: next :: rest ∧ front.length + 1 = n := by
  have length : (rows.drop (n - 1)).length = rows.length - (n - 1) := List.length_drop
  have front : (rows.take (n - 1)).length = n - 1 := List.length_take_of_le (by omega)
  cases shape : rows.drop (n - 1) with
  | nil => rw [shape, List.length_nil] at length; omega
  | cons last others =>
    cases others with
    | nil => rw [shape, List.length_singleton] at length; omega
    | cons next rest =>
      exact ⟨rows.take (n - 1), last, next, rest, by rw [← shape, List.take_append_drop], by omega⟩

/-- Neighbours of one key may as well stand the other way round. -/
theorem ordered_swap {front rest : List Row} {last next : Row}
    (ordered : (front ++ last :: next :: rest).Pairwise fun a b => key b ≤ key a) (tie : key next = key last) :
    (front ++ next :: last :: rest).Pairwise fun a b => key b ≤ key a := by
  simp only [List.pairwise_append, List.pairwise_cons, List.forall_mem_cons] at ordered ⊢
  obtain ⟨sorted, ⟨⟨-, belowLast⟩, belowNext, rest⟩, below⟩ := ordered
  refine ⟨sorted, ⟨⟨tie.ge, belowNext⟩, belowLast, rest⟩, fun row member => ?_⟩
  obtain ⟨aboveLast, aboveNext, aboveRest⟩ := below row member
  exact ⟨aboveNext, aboveLast, aboveRest⟩

/-- If every order selects the same rows, no key lies on both sides of the
limit: the rows selected are those from a cutoff on. -/
theorem cutoff_of_same [DecidableEq Row] {n : ℕ+} {table rows : List Row} (unique : table.Nodup)
    (overflow : n < table.length)
    (same : ∀ order : Descending key, (order.newest (some n) table).Perm rows) :
    ∃ cutoff, (table.filter (cutoff ≤ key ·)).length = n ∧ rows.Perm (table.filter (cutoff ≤ key ·)) := by
  have perm := (stable key).perm table
  have ordered := (stable key).ordered table
  have selected := same (stable key)
  rw [newest, Option.elim_some] at selected
  obtain ⟨front, last, next, rest, shape, count⟩ := split_at n.pos (perm.length_eq ▸ overflow)
  have taken (a : Row) (others : List Row) : (front ++ a :: others).take n = front ++ [a] := by
    rw [← count, List.take_length_add_append, List.take_succ_cons, List.take_zero]
  rw [shape] at perm ordered selected
  rw [taken] at selected
  have sortedFront := List.pairwise_append.mp ordered
  have sortedRest := List.pairwise_cons.mp sortedFront.2.1
  by_cases apart : key next < key last
  · refine ⟨key last, ?_⟩
    have selectsFront : (front ++ last :: next :: rest).filter (key last ≤ key ·) = front ++ [last] := by
      have older : (next :: rest).filter (key last ≤ key ·) = [] := by
        refine List.filter_eq_nil_iff.mpr fun row member => ?_
        have below : key row ≤ key next := by
          rcases List.mem_cons.mp member with rfl | later
          · exact le_refl _
          · exact List.rel_of_pairwise_cons sortedRest.2 later
        simpa using below.trans_lt apart
      have newer : front.filter (key last ≤ key ·) = front := by
        refine List.filter_eq_self.mpr fun row member => ?_
        simpa using sortedFront.2.2 row member last (List.mem_cons_self ..)
      rw [List.filter_append, newer, List.filter_cons_of_pos (by simp), older]
    have filtered := (perm.filter (key last ≤ key ·)).symm
    rw [selectsFront] at filtered
    refine ⟨?_, selected.symm.trans filtered.symm⟩
    rw [filtered.length_eq, List.length_append, List.length_singleton, count]
  · -- A tie across the limit: the sort may as well put the other row first.
    exfalso
    have tie : key next = key last :=
      le_antisymm (sortedRest.1 next (List.mem_cons_self ..)) (not_lt.mp apart)
    have swappedPerm : (front ++ next :: last :: rest).Perm table :=
      ((List.Perm.swap last next rest).append_left front).trans perm
    have swapped := same (giving table _ swappedPerm (ordered_swap ordered tie))
    rw [newest, Option.elim_some, giving_sort, taken] at swapped
    have equal := (List.perm_append_left_iff front).mp (selected.trans swapped.symm)
    rw [List.singleton_perm_singleton] at equal
    have distinct := (perm.nodup_iff.mpr unique).of_append_right
    exact (List.nodup_cons.mp distinct).1 (equal ▸ List.mem_cons_self ..)

/-- Rows added to a table leave its newest rows alone: all rows fit and none
was added, or from some cutoff on they fill the limit and none was added. -/
def Undisturbed (key : Row → Key) (limit : Option ℕ+) (before after : List Row) : Prop :=
  (∀ n ∈ limit, before.length ≤ n) ∧ after ⊆ before ∨
    ∃ n ∈ limit, ∃ cutoff, (before.filter (cutoff ≤ key ·)).length = n ∧ ∀ row ∈ after, cutoff ≤ key row → row ∈ before

theorem filter_eq_of_subset {before after : List Row} (unique : after.Nodup) (kept : before.Sublist after)
    {p : Row → Bool} (old : ∀ row ∈ after, p row → row ∈ before) : before.filter p = after.filter p := by
  have subset : after.filter p ⊆ before.filter p := fun row member => by
    obtain ⟨inAfter, holds⟩ := List.mem_filter.mp member
    exact List.mem_filter.mpr ⟨old row inAfter holds, holds⟩
  exact (kept.filter p).eq_of_length_le ((unique.filter p).length_le_of_subset subset)

/-- Whatever the order of ties then and now, the newest rows are the same
exactly when the added rows leave them alone. -/
theorem newest_again_iff [DecidableEq Row] (order : Descending key) {limit : Option ℕ+} {before after : List Row}
    (unique : after.Nodup) (kept : before.Sublist after) :
    (∀ again : Descending key, (again.newest limit after).Perm (order.newest limit before)) ↔
      Undisturbed key limit before after := by
  constructor
  · intro same
    by_cases fits : ∀ n ∈ limit, after.length ≤ n
    · have fitted : ∀ n ∈ limit, before.length ≤ n := fun n given => kept.length_le.trans (fits n given)
      have all := ((stable key).newest_of_fits fits).symm.trans (same (stable key))
      exact Or.inl ⟨fitted, (all.trans (order.newest_of_fits fitted)).subset⟩
    · simp only [not_forall, not_le] at fits
      obtain ⟨n, given, overflow⟩ := fits
      rw [Option.mem_def] at given
      subst given
      obtain ⟨cutoff, fills, selected⟩ := cutoff_of_same unique overflow same
      have old : ∀ row ∈ after, cutoff ≤ key row → row ∈ before := fun row member reaches =>
        order.mem_of_mem_newest (selected.symm.subset (List.mem_filter.mpr ⟨member, by simpa using reaches⟩))
      have equal := filter_eq_of_subset unique kept (p := (cutoff ≤ key ·)) (by simpa using old)
      exact Or.inr ⟨n, rfl, cutoff, equal ▸ fills, old⟩
  · rintro (⟨fits, subset⟩ | ⟨n, given, cutoff, fills, old⟩) again
    · have equal := kept.eq_of_length_le (unique.length_le_of_subset subset)
      subst equal
      exact (again.newest_of_fits fits).trans (order.newest_of_fits fits).symm
    · rw [Option.mem_def] at given
      subst given
      have equal := filter_eq_of_subset unique kept (p := (cutoff ≤ key ·)) (by simpa using old)
      have first := order.newest_of_cutoff fills
      rw [equal] at fills first
      exact (again.newest_of_cutoff fills).trans first.symm

end Descending
