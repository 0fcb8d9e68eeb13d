import Mathlib.Algebra.Ring.Nat
import Amel.Library.KeyedTable

universe u v w x y

namespace Transaction

variable {State : Type u} {Statement : Type v} {Result : Type w} (execute : State → Statement → State × Result)

/-- Statements one after the other: the state they make, and what each of them returned. -/
def executeAll (s : State) : List Statement → State × List Result
  | [] => (s, [])
  | statement :: rest =>
    let (made, result) := execute s statement
    let (after, results) := executeAll made rest
    (after, result :: results)

@[simp] theorem executeAll_nil (s : State) : executeAll execute s [] = (s, []) := rfl

theorem executeAll_cons (s : State) (statement : Statement) (rest : List Statement) :
    executeAll execute s (statement :: rest) =
      ((executeAll execute (execute s statement).1 rest).1,
        (execute s statement).2 :: (executeAll execute (execute s statement).1 rest).2) := rfl

theorem executeAll_append (s : State) (first second : List Statement) :
    executeAll execute s (first ++ second) =
      ((executeAll execute (executeAll execute s first).1 second).1,
        (executeAll execute s first).2 ++ (executeAll execute (executeAll execute s first).1 second).2) := by
  induction first generalizing s with
  | nil => rfl
  | cons statement rest ih =>
    rw [List.cons_append, executeAll_cons, executeAll_cons, ih]
    rfl

/-- Inserts that skip present keys, in statements of any sizes, add to the
table what one such statement adds, and report as many rows in all. -/
theorem executeAll_inserts {Row : Type x} {Key : Type y} [DecidableEq Key] (key : Row → Key)
    (store : List Row → State) (insert : List Row → Statement) (report : Nat → Result)
    (executes : ∀ table batch, execute (store table) (insert batch) =
      (store (KeyedTable.insertIgnore key table batch), report (KeyedTable.returning key table batch).length))
    (table : List Row) (batches : List (List Row)) :
    ∃ counts : List Nat, executeAll execute (store table) (batches.map insert) =
      (store (KeyedTable.insertIgnore key table batches.flatten), counts.map report) ∧
      table.length + counts.sum = (KeyedTable.insertIgnore key table batches.flatten).length := by
  induction batches generalizing table with
  | nil => exact ⟨[], rfl, rfl⟩
  | cons batch rest ih =>
    obtain ⟨counts, executed, total⟩ := ih (KeyedTable.insertIgnore key table batch)
    have grown := (KeyedTable.insertIgnore_extends key table batch).length_le
    have added : (KeyedTable.returning key table batch).length =
      (KeyedTable.insertIgnore key table batch).length - table.length := List.length_drop
    refine ⟨(KeyedTable.returning key table batch).length :: counts, ?_, ?_⟩
    · rw [List.map_cons, executeAll_cons, executes, executed, List.flatten_cons, KeyedTable.insertIgnore_append]
      rfl
    · rw [List.flatten_cons, KeyedTable.insertIgnore_append, List.sum_cons, ← total]
      omega

/-- How a block around one transaction ends: with its commit, with an
exception after some of its statements, or with one from the commit, which
may have been applied before its answer was lost. -/
inductive Ending
  | commits
  | raises (executed : Nat)
  | commitRaises (applied : Bool)
  deriving DecidableEq, Repr

namespace Ending

/-- The statements whose results the block gets to see. -/
def executed (statements : List Statement) : Ending → List Statement
  | commits | commitRaises _ => statements
  | raises executed => statements.take executed

/-- Whether the database applies the transaction; an exception before the commit rolls it back. -/
def applied : Ending → Bool
  | commits => true
  | raises _ => false
  | commitRaises applied => applied

/-- What a block leaves in the database. -/
def leaves (ending : Ending) (s : State) (statements : List Statement) : State :=
  if ending.applied then (executeAll execute s statements).1 else s

/-- What the statements returned to a block before it ended. -/
def sees (ending : Ending) (s : State) (statements : List Statement) : List Result :=
  (executeAll execute s (ending.executed statements)).2

/-- All of the transaction or nothing. -/
theorem leaves_all_or_nothing (ending : Ending) (s : State) (statements : List Statement) :
    ending.leaves execute s statements = s ∨
      ending.leaves execute s statements = (executeAll execute s statements).1 := by
  unfold leaves
  split
  · exact Or.inr rfl
  · exact Or.inl rfl

end Ending

end Transaction
