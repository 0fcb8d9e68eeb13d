import Mathlib.Data.List.Nodup
import Mathlib.Data.List.Perm.Basic

universe u v

namespace KeyedTable

variable {Row : Type u} {Key : Type v} [DecidableEq Key] (key : Row → Key)

/-- One row of `INSERT ... ON CONFLICT (key) DO NOTHING`. -/
def insertRow (table : List Row) (row : Row) : List Row :=
  if key row ∈ table.map key then table else table ++ [row]

/-- A multi-row `INSERT ... VALUES ... ON CONFLICT (key) DO NOTHING`: the
rows are taken in order, so the first of several with one key wins. -/
def insertIgnore (table rows : List Row) : List Row :=
  rows.foldl (insertRow key) table

/-- The rows that `RETURNING` yields: those the statement added. -/
def returning (table rows : List Row) : List Row :=
  (insertIgnore key table rows).drop table.length

@[simp] theorem insertIgnore_nil (table : List Row) : insertIgnore key table [] = table := rfl

@[simp] theorem insertIgnore_cons (table : List Row) (row : Row) (rows : List Row) :
    insertIgnore key table (row :: rows) = insertIgnore key (insertRow key table row) rows := rfl

/-- Two statements one after the other add what one statement with both
value lists adds. -/
theorem insertIgnore_append (table first second : List Row) :
    insertIgnore key table (first ++ second) = insertIgnore key (insertIgnore key table first) second := by
  simp only [insertIgnore, List.foldl_append]

theorem insertRow_extends (table : List Row) (row : Row) : table <+: insertRow key table row := by
  unfold insertRow
  split
  · exact List.prefix_rfl
  · exact List.prefix_append table [row]

/-- Committed rows stay, unchanged and in place. -/
theorem insertIgnore_extends (table rows : List Row) : table <+: insertIgnore key table rows := by
  induction rows generalizing table with
  | nil => exact List.prefix_rfl
  | cons row rows ih => exact (insertRow_extends key table row).trans (ih _)

theorem insertRow_keys_nodup {table : List Row} (unique : (table.map key).Nodup) (row : Row) :
    ((insertRow key table row).map key).Nodup := by
  unfold insertRow
  split
  · exact unique
  · rename_i absent
    rw [List.map_append, List.map_singleton]
    exact List.Nodup.append unique (List.nodup_singleton _) (List.disjoint_singleton.mpr absent)

theorem insertIgnore_keys_nodup {table : List Row} (unique : (table.map key).Nodup) (rows : List Row) :
    ((insertIgnore key table rows).map key).Nodup := by
  induction rows generalizing table with
  | nil => exact unique
  | cons row rows ih => exact ih (insertRow_keys_nodup key unique row)

theorem mem_insertRow {table : List Row} {row added : Row} (member : row ∈ insertRow key table added) :
    row ∈ table ∨ row = added := by
  unfold insertRow at member
  split at member
  · exact Or.inl member
  · simpa only [List.mem_append, List.mem_singleton] using member

/-- Nothing appears in the table that the statement did not propose. -/
theorem mem_insertIgnore {table rows : List Row} {row : Row} (member : row ∈ insertIgnore key table rows) :
    row ∈ table ∨ row ∈ rows := by
  induction rows generalizing table with
  | nil => exact Or.inl member
  | cons head rows ih =>
    rcases ih member with earlier | later
    · rcases mem_insertRow key earlier with old | rfl
      · exact Or.inl old
      · exact Or.inr (List.mem_cons_self ..)
    · exact Or.inr (List.mem_cons_of_mem _ later)

theorem key_mem_insertRow (table : List Row) (row : Row) : key row ∈ (insertRow key table row).map key := by
  unfold insertRow
  split
  · assumption
  · simp

/-- After the statement every proposed key is present. -/
theorem key_mem_insertIgnore {table rows : List Row} {row : Row} (member : row ∈ rows) :
    key row ∈ (insertIgnore key table rows).map key := by
  induction rows generalizing table with
  | nil => simp at member
  | cons head rows ih =>
    rcases List.mem_cons.mp member with rfl | later
    · exact ((insertIgnore_extends key _ rows).map key).subset (key_mem_insertRow key table row)
    · exact ih later

/-- A statement all of whose keys are present adds nothing. -/
theorem insertIgnore_of_present {table rows : List Row}
    (present : ∀ row ∈ rows, key row ∈ table.map key) : insertIgnore key table rows = table := by
  induction rows with
  | nil => rfl
  | cons head rows ih =>
    rw [insertIgnore_cons, insertRow, if_pos (present head (List.mem_cons_self ..))]
    exact ih fun row member => present row (List.mem_cons_of_mem _ member)

/-- A statement with distinct keys adds its rows, but for those with a key of
the table. -/
theorem insertIgnore_of_distinct {table rows : List Row} (distinct : (rows.map key).Nodup) :
    insertIgnore key table rows = table ++ rows.filter fun row => key row ∉ table.map key := by
  induction rows generalizing table with
  | nil => exact (List.append_nil table).symm
  | cons head rows ih =>
    rw [List.map_cons, List.nodup_cons] at distinct
    rw [insertIgnore_cons, ih distinct.2, insertRow]
    by_cases present : key head ∈ table.map key
    · rw [if_pos present, List.filter_cons_of_neg (by simpa using present)]
    · rw [if_neg present, List.filter_cons_of_pos (by simpa using present), List.append_assoc, List.singleton_append]
      refine congrArg (table ++ head :: ·) (List.filter_congr fun row member => ?_)
      have other : key row ≠ key head := fun same => distinct.1 (same ▸ List.mem_map_of_mem member)
      simp only [List.map_append, List.map_singleton, List.mem_append, List.mem_singleton, other, or_false]

/-- A statement with distinct keys, all of them new, adds every row. -/
theorem insertIgnore_of_fresh {table rows : List Row} (distinct : (rows.map key).Nodup)
    (fresh : ∀ row ∈ rows, key row ∉ table.map key) : insertIgnore key table rows = table ++ rows := by
  rw [insertIgnore_of_distinct key distinct,
    List.filter_eq_self.mpr fun row member => decide_eq_true (fresh row member)]

/-- `after` is `table` with those of the rows that have a new key, the first row for each key. -/
def FirstWins (table rows after : List Row) : Prop :=
  ∃ added, after = table ++ added ∧ added.Sublist rows ∧ (added.map key).Nodup ∧
    ∀ row, row ∈ added ↔ key row ∉ table.map key ∧ rows.find? (fun other => key other = key row) = some row

theorem insertIgnore_firstWins (table rows : List Row) : FirstWins key table rows (insertIgnore key table rows) := by
  induction rows generalizing table with
  | nil => exact ⟨[], by simp, List.Sublist.refl _, by simp, by simp⟩
  | cons head rest ih =>
    rw [insertIgnore_cons]
    by_cases present : key head ∈ table.map key
    · obtain ⟨added, extended, part, distinct, first⟩ := ih table
      rw [insertRow, if_pos present]
      refine ⟨added, extended, part.cons head, distinct, fun row => ?_⟩
      rw [first row]
      refine and_congr_right fun fresh => ?_
      have other : key head ≠ key row := fun same => fresh (same ▸ present)
      rw [List.find?_cons_of_neg (by simpa using other)]
    · obtain ⟨added, extended, part, distinct, first⟩ := ih (table ++ [head])
      rw [insertRow, if_neg present]
      have fresh (row : Row) (member : row ∈ added) : key row ∉ table.map key ∧ key row ≠ key head := by
        have new := ((first row).mp member).1
        simp only [List.map_append, List.map_cons, List.map_nil, List.mem_append, List.mem_singleton, not_or] at new
        exact new
      refine ⟨head :: added, ?_, part.cons_cons head, ?_, fun row => ?_⟩
      · rw [extended, List.append_assoc, List.singleton_append]
      · rw [List.map_cons, List.nodup_cons]
        refine ⟨fun again => ?_, distinct⟩
        obtain ⟨row, member, same⟩ := List.mem_map.mp again
        exact (fresh row member).2 same
      · rw [List.mem_cons, first row, List.map_append, List.map_singleton, List.mem_append, List.mem_singleton, not_or]
        by_cases same : key head = key row
        · rw [List.find?_cons_of_pos (by simpa using same)]
          constructor
          · rintro (rfl | ⟨⟨_, other⟩, _⟩)
            · exact ⟨present, rfl⟩
            · exact absurd same.symm other
          · rintro ⟨_, found⟩
            exact Or.inl (Option.some.inj found).symm
        · rw [List.find?_cons_of_neg (by simpa using same)]
          constructor
          · rintro (rfl | ⟨⟨new, _⟩, found⟩)
            · exact absurd rfl same
            · exact ⟨new, found⟩
          · rintro ⟨new, found⟩
            exact Or.inr ⟨⟨new, Ne.symm same⟩, found⟩

/-- The same statement again adds nothing. -/
theorem insertIgnore_again (table rows : List Row) :
    insertIgnore key (insertIgnore key table rows) rows = insertIgnore key table rows :=
  insertIgnore_of_present key fun _ member => key_mem_insertIgnore key member

/-- The rows of a statement whose key is in the table or on an earlier row of it. -/
def repeats (table : List Row) : List Row → Nat
  | [] => 0
  | row :: rest => (if key row ∈ table.map key then 1 else 0) + repeats (insertRow key table row) rest

theorem repeats_add_length (table rows : List Row) :
    repeats key table rows + (insertIgnore key table rows).length = table.length + rows.length := by
  induction rows generalizing table with
  | nil => exact Nat.zero_add _
  | cons row rest ih =>
    have onward := ih (insertRow key table row)
    rw [repeats, insertIgnore_cons, List.length_cons]
    by_cases present : key row ∈ table.map key
    · rw [insertRow, if_pos present] at onward ⊢
      rw [if_pos present]
      omega
    · rw [insertRow, if_neg present] at onward ⊢
      rw [if_neg present]
      rw [List.length_append, List.length_singleton] at onward
      omega

/-- Each row of a statement is returned or repeated. -/
theorem length_returning (table rows : List Row) :
    (returning key table rows).length + repeats key table rows = rows.length := by
  have all := repeats_add_length key table rows
  have grown := (insertIgnore_extends key table rows).length_le
  rw [returning, List.length_drop]
  omega

/-- Statements one after the other in one transaction, and how many rows
they added together. -/
def insertBatches (table : List Row) (batches : List (List Row)) : List Row × Nat :=
  batches.foldl (fun (current, total) batch =>
    (insertIgnore key current batch, total + (returning key current batch).length)) (table, 0)

theorem insertBatches_from (table : List Row) (batches : List (List Row)) (total : Nat) :
    let result := batches.foldl (fun (current, total) batch =>
      (insertIgnore key current batch, total + (returning key current batch).length)) (table, total)
    result.1 = insertIgnore key table batches.flatten ∧ table.length + result.2 = result.1.length + total := by
  induction batches generalizing table total with
  | nil => exact ⟨rfl, rfl⟩
  | cons batch rest ih =>
    obtain ⟨rows, count⟩ := ih (insertIgnore key table batch) (total + (returning key table batch).length)
    have grown := (insertIgnore_extends key table batch).length_le
    have added : (returning key table batch).length = (insertIgnore key table batch).length - table.length :=
      List.length_drop
    rw [List.foldl_cons, List.flatten_cons, insertIgnore_append]
    refine ⟨rows, ?_⟩
    dsimp only at count ⊢
    omega

/-- How the rows are cut into statements does not matter. -/
theorem insertBatches_fst (table : List Row) (batches : List (List Row)) :
    (insertBatches key table batches).1 = insertIgnore key table batches.flatten :=
  (insertBatches_from key table batches 0).1

theorem insertBatches_snd (table : List Row) (batches : List (List Row)) :
    table.length + (insertBatches key table batches).2 = (insertBatches key table batches).1.length :=
  (insertBatches_from key table batches 0).2

end KeyedTable
