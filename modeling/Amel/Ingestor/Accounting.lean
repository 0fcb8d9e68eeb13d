import Amel.Library.Transaction
import Amel.Ingestor.Batch

namespace Amel

open Python (characters text)
open Transaction

/-- The counters of one topic that `_write_batch` increments. -/
structure ConsumedCounters where
  persisted : Nat := 0
  duplicateSkipped : Nat := 0
  deriving DecidableEq, Repr

/-- `MESSAGES_CONSUMED` by topic. -/
structure MessagesConsumed where
  features : ConsumedCounters := {}
  labels : ConsumedCounters := {}
  deriving DecidableEq, Repr

/-- One round of the loop of `_write_batch`: the insert, then its increments. -/
def LandingStatement.execute (landing : Landing) : LandingStatement → Landing × MessagesConsumed
  | insertFeatures rows =>
    let inserted := (KeyedTable.returning (·.eventId) landing.features rows).length
    ({ landing with features := KeyedTable.insertIgnore (·.eventId) landing.features rows },
      { features := ⟨inserted, rows.length - inserted⟩ })
  | insertLabels rows =>
    let inserted := (KeyedTable.returning (·.eventId) landing.labels rows).length
    ({ landing with labels := KeyedTable.insertIgnore (·.eventId) landing.labels rows },
      { labels := ⟨inserted, rows.length - inserted⟩ })

/-- One attempt of `_write_with_retry`: when its transaction starts, what
the landing tables hold for it, and how it ends. -/
structure WriteAttempt where
  now : Int
  landing : Landing
  ending : Ending

namespace WriteAttempt

variable (work : Batch) (attempt : WriteAttempt)

def leaves : Landing := attempt.ending.leaves LandingStatement.execute attempt.landing (work.statements attempt.now)

def sees : List MessagesConsumed :=
  attempt.ending.sees LandingStatement.execute attempt.landing (work.statements attempt.now)

def applied : Bool := attempt.ending.applied

/-- The attempt executes an insert and increments counters for it. -/
def pastFirstInsert : Bool :=
  match attempt.ending with
  | .raises executed => 0 < executed
  | _ => true

end WriteAttempt

/-- What one table's insert comes to in one attempt. -/
structure Tally where
  inserted : Nat
  skipped : Nat
  seen : Bool
  applied : Bool

namespace Tally

/-- What an insert of some rows comes to. -/
def ofInsert {Landed : Type} (key : Landed → String) (table rows : List Landed) (seen applied : Bool) : Tally where
  inserted := (KeyedTable.returning key table rows).length
  skipped := KeyedTable.repeats key table rows
  seen := seen
  applied := applied

section Insert

variable {Landed : Type} {key : Landed → String} {table rows : List Landed} {seen applied : Bool}

theorem ofInsert_whole : (ofInsert key table rows seen applied).inserted +
    (ofInsert key table rows seen applied).skipped = rows.length :=
  KeyedTable.length_returning key table rows

/-- The counters that `_write_batch` increments for the insert. -/
theorem ofInsert_counters : (⟨(KeyedTable.returning key table rows).length,
    rows.length - (KeyedTable.returning key table rows).length⟩ : ConsumedCounters) =
      ⟨(ofInsert key table rows seen applied).inserted, (ofInsert key table rows seen applied).skipped⟩ := by
  have whole := KeyedTable.length_returning key table rows
  have rest : rows.length - (KeyedTable.returning key table rows).length = KeyedTable.repeats key table rows := by omega
  rw [rest]
  rfl

/-- The table grows by what is inserted. -/
theorem ofInsert_inserted : (ofInsert key table rows seen applied).inserted =
    (KeyedTable.insertIgnore key table rows).length - table.length := List.length_drop

theorem ofInsert_present (present : ∀ r ∈ rows, key r ∈ table.map key) :
    (ofInsert key table rows seen applied).inserted = 0 := by
  rw [ofInsert_inserted, KeyedTable.insertIgnore_of_present _ present, Nat.sub_self]

end Insert

/-- The counters of the seen inserts agree with the tables: as many rows
persisted as were committed, and those skipped that the first applied
insert left out. -/
def Agrees (tallies : List Tally) : Prop :=
  (tallies.map fun t => if t.seen then t.inserted else 0).sum =
      (tallies.map fun t => if t.applied then t.inserted else 0).sum ∧
    (tallies.map fun t => if t.seen then t.skipped else 0).sum = ((tallies.find? (·.applied)).map (·.skipped)).getD 0

/-- Attempts with the same rows. An applied one is seen, and leaves nothing
to insert to those after it. -/
structure Sequence (rows : Nat) (tallies : List Tally) : Prop where
  whole : ∀ t ∈ tallies, t.inserted + t.skipped = rows
  seen : ∀ t ∈ tallies, t.applied → t.seen
  once : tallies.Pairwise fun t later => t.applied → later.inserted = 0

variable {rows : Nat} {tallies : List Tally} {t : Tally}

theorem Sequence.tail (sequence : Sequence rows (t :: tallies)) : Sequence rows tallies where
  whole := fun u member => sequence.whole u (List.mem_cons_of_mem _ member)
  seen := fun u member => sequence.seen u (List.mem_cons_of_mem _ member)
  once := (List.pairwise_cons.mp sequence.once).2

theorem Sequence.seen_sum (sequence : Sequence rows tallies) :
    (tallies.map fun t => if t.seen then t.inserted else 0).sum +
      (tallies.map fun t => if t.seen then t.skipped else 0).sum = tallies.countP (·.seen) * rows := by
  induction tallies with
  | nil => simp
  | cons t rest ih =>
    have onward := ih sequence.tail
    have here := sequence.whole t (List.mem_cons_self ..)
    rw [List.map_cons, List.map_cons, List.sum_cons, List.sum_cons, List.countP_cons]
    by_cases seen : t.seen = true
    · simp only [seen, if_true, Nat.succ_mul]
      omega
    · simp only [seen, Bool.false_eq_true, if_false, Nat.zero_add, Nat.add_zero]
      exact onward

/-- Only the first applied insert commits rows. -/
theorem Sequence.applied_sum (sequence : Sequence rows tallies) :
    (tallies.map fun t => if t.applied then t.inserted else 0).sum +
      ((tallies.find? (·.applied)).map (·.skipped)).getD 0 = if tallies.any (·.applied) then rows else 0 := by
  induction tallies with
  | nil => simp
  | cons t rest ih =>
    have onward := ih sequence.tail
    have here := sequence.whole t (List.mem_cons_self ..)
    have later := (List.pairwise_cons.mp sequence.once).1
    rw [List.map_cons, List.sum_cons, List.any_cons]
    by_cases applied : t.applied = true
    · have nothing : (rest.map fun t => if t.applied then t.inserted else 0).sum = 0 := by
        refine List.sum_eq_zero_iff_forall_eq_nat.mpr fun count member => ?_
        obtain ⟨u, inRest, rfl⟩ := List.mem_map.mp member
        rw [later u inRest applied, ite_self]
      rw [List.find?_cons_of_pos applied, nothing]
      simpa [applied] using here
    · rw [List.find?_cons_of_neg applied]
      simpa [applied] using onward

theorem Sequence.countP_applied_le (sequence : Sequence rows tallies) :
    (if tallies.any (·.applied) then 1 else 0) ≤ tallies.countP (·.applied) ∧
      tallies.countP (·.applied) ≤ tallies.countP (·.seen) := by
  refine ⟨?_, List.countP_mono_left sequence.seen⟩
  by_cases someApplied : tallies.any (·.applied) = true
  · rw [if_pos someApplied]
    obtain ⟨t, member, applied⟩ := List.any_eq_true.mp someApplied
    exact List.countP_pos_iff.mpr ⟨t, member, applied⟩
  · rw [if_neg someApplied]
    exact Nat.zero_le _

/-- Where no more inserts are seen than applied, a seen one is applied. -/
theorem applied_of_seen (implied : ∀ t ∈ tallies, t.applied → t.seen)
    (few : tallies.countP (·.seen) ≤ tallies.countP (·.applied)) : ∀ t ∈ tallies, t.seen = t.applied := by
  induction tallies with
  | nil => simp
  | cons t rest ih =>
    have impliedRest : ∀ u ∈ rest, u.applied → u.seen := fun u member => implied u (List.mem_cons_of_mem _ member)
    have fewer : rest.countP (·.applied) ≤ rest.countP (·.seen) := List.countP_mono_left impliedRest
    have here := implied t (List.mem_cons_self ..)
    rw [List.countP_cons, List.countP_cons] at few
    have both : t.seen = t.applied ∧ rest.countP (·.seen) ≤ rest.countP (·.applied) := by
      cases applied : t.applied with
      | true =>
        rw [here applied, applied] at few
        exact ⟨here applied, by simpa using few⟩
      | false =>
        cases seen : t.seen with
        | true =>
          rw [applied, seen] at few
          simp only [if_true, Bool.false_eq_true, if_false] at few
          omega
        | false =>
          rw [applied, seen] at few
          exact ⟨rfl, by simpa using few⟩
    intro u member
    rcases List.mem_cons.mp member with rfl | inRest
    · exact both.1
    · exact ih impliedRest both.2 u inRest

/-- The counters agree exactly when nothing was to be written or the one
insert seen is the one applied. -/
theorem Sequence.agrees_iff (sequence : Sequence rows tallies) :
    Agrees tallies ↔ rows = 0 ∨ tallies.countP (·.seen) = if tallies.any (·.applied) then 1 else 0 := by
  have counted := sequence.seen_sum
  have committed := sequence.applied_sum
  have scaled : (if tallies.any (·.applied) then 1 else 0) * rows = if tallies.any (·.applied) then rows else 0 := by
    split
    · exact Nat.one_mul rows
    · exact Nat.zero_mul rows
  obtain ⟨few, _⟩ := sequence.countP_applied_le
  constructor
  · rintro ⟨persisted, skipped⟩
    rw [persisted, skipped, committed, ← scaled] at counted
    by_cases empty : rows = 0
    · exact Or.inl empty
    · exact Or.inr (Nat.eq_of_mul_eq_mul_right (Nat.pos_of_ne_zero empty) counted.symm)
  · intro condition
    have same : ∀ (value : Tally → Nat), (∀ t ∈ tallies, value t ≤ rows) →
        (tallies.map fun t => if t.seen then value t else 0).sum =
          (tallies.map fun t => if t.applied then value t else 0).sum := by
      intro value bounded
      refine congrArg List.sum (List.map_congr_left fun t member => ?_)
      rcases condition with empty | once
      · have zero : value t = 0 := by
          have bound := bounded t member
          omega
        rw [zero, ite_self, ite_self]
      · rw [applied_of_seen sequence.seen (once.trans_le few) t member]
    have persisted := same (·.inserted) fun t member => by
      have here := sequence.whole t member
      omega
    refine ⟨persisted, ?_⟩
    have total : tallies.countP (·.seen) * rows = if tallies.any (·.applied) then rows else 0 := by
      rcases condition with empty | once
      · rw [empty, Nat.mul_zero, ite_self]
      · rw [once, scaled]
    rw [total, ← committed, persisted] at counted
    exact Nat.add_left_cancel counted

end Tally

namespace WriteAttempt

variable (work : Batch) (attempt : WriteAttempt)

/-- What an attempt adds to the counters; the registry takes nothing back. -/
def increments : MessagesConsumed where
  features :=
    { persisted := ((attempt.sees work).map (·.features.persisted)).sum
      duplicateSkipped := ((attempt.sees work).map (·.features.duplicateSkipped)).sum }
  labels :=
    { persisted := ((attempt.sees work).map (·.labels.persisted)).sum
      duplicateSkipped := ((attempt.sees work).map (·.labels.duplicateSkipped)).sum }

/-- The labels follow the features, if there are any. -/
def pastLabelsInsert : Bool :=
  match attempt.ending with
  | .raises executed => (if work.featuresRows = [] then 0 else 1) < executed
  | _ => true

/-- The inserts an attempt gets past, in their order. -/
theorem executed_statements : attempt.ending.executed (work.statements attempt.now) =
    (if work.featuresRows ≠ [] ∧ attempt.pastFirstInsert then
      [.insertFeatures (work.featuresRows.map (·.toFeature attempt.now))] else []) ++
    if work.labelsRows ≠ [] ∧ attempt.pastLabelsInsert work then
      [.insertLabels (work.labelsRows.map (·.toLabel attempt.now))] else [] := by
  obtain ⟨now, landing, ending⟩ := attempt
  cases ending with
  | commits | commitRaises => simp [Ending.executed, Batch.statements, pastFirstInsert, pastLabelsInsert]
  | raises executed =>
    simp only [Ending.executed, Batch.statements, pastFirstInsert, pastLabelsInsert]
    by_cases features : work.featuresRows = []
    · by_cases labels : work.labelsRows = []
      · simp [features, labels]
      · cases executed <;> simp [features, labels]
    · by_cases labels : work.labelsRows = []
      · cases executed <;> simp [features, labels]
      · rcases executed with - | - | executed <;> simp [features, labels]

/-- The two tables that an attempt inserts into. -/
inductive LandingTable
  | features
  | labels

namespace LandingTable

variable (table : LandingTable)

def size : Nat :=
  match table with
  | features => work.featuresRows.length
  | labels => work.labelsRows.length

def counters : MessagesConsumed → ConsumedCounters :=
  match table with
  | features => (·.features)
  | labels => (·.labels)

/-- The attempt executes the insert into this table, if there is one. -/
def past : Bool :=
  match table with
  | features => attempt.pastFirstInsert
  | labels => attempt.pastLabelsInsert work

def tally : Tally :=
  match table with
  | features => .ofInsert (·.eventId) attempt.landing.features (work.featuresRows.map (·.toFeature attempt.now))
      attempt.pastFirstInsert attempt.applied
  | labels => .ofInsert (·.eventId) attempt.landing.labels (work.labelsRows.map (·.toLabel attempt.now))
      (attempt.pastLabelsInsert work) attempt.applied

/-- What an insert into this table adds to the counters. -/
def increment (counters : ConsumedCounters) : MessagesConsumed :=
  match table with
  | features => { features := counters }
  | labels => { labels := counters }

theorem tally_whole : (table.tally work attempt).inserted + (table.tally work attempt).skipped = table.size work := by
  cases table
  · exact Tally.ofInsert_whole.trans (List.length_map _)
  · exact Tally.ofInsert_whole.trans (List.length_map _)

@[simp] theorem tally_seen : (table.tally work attempt).seen = table.past work attempt := by cases table <;> rfl

@[simp] theorem tally_applied : (table.tally work attempt).applied = attempt.applied := by cases table <;> rfl

/-- The increment of the attempt's insert, if it executes it. -/
def executed : List MessagesConsumed :=
  if table.size work ≠ 0 ∧ table.past work attempt then
    [table.increment ⟨(table.tally work attempt).inserted, (table.tally work attempt).skipped⟩]
  else []

/-- Without rows there is nothing to count, executed or not. -/
theorem sum_executed (value : MessagesConsumed → Nat) (zero : value {} = 0) :
    ((table.executed work attempt).map value).sum = if table.past work attempt then
      value (table.increment ⟨(table.tally work attempt).inserted, (table.tally work attempt).skipped⟩) else 0 := by
  have whole := table.tally_whole work attempt
  unfold executed
  by_cases empty : table.size work = 0
  · have nothing : (table.tally work attempt).inserted = 0 ∧ (table.tally work attempt).skipped = 0 := by omega
    have none : table.increment ⟨0, 0⟩ = {} := by cases table <;> rfl
    rw [nothing.1, nothing.2, none, zero, ite_self, if_neg fun executes => executes.1 empty]
    rfl
  · by_cases past : table.past work attempt = true
    · rw [if_pos ⟨empty, past⟩, if_pos past, List.map_singleton, List.sum_singleton]
    · rw [if_neg fun executes => past executes.2, if_neg past]
      rfl

end LandingTable

theorem execute_insertFeatures : LandingStatement.execute attempt.landing
    (.insertFeatures (work.featuresRows.map (·.toFeature attempt.now))) =
    ({ attempt.landing with
        features := KeyedTable.insertIgnore (·.eventId) attempt.landing.features
          (work.featuresRows.map (·.toFeature attempt.now)) },
      LandingTable.features.increment
        ⟨(LandingTable.features.tally work attempt).inserted, (LandingTable.features.tally work attempt).skipped⟩) :=
  Prod.ext rfl (congrArg LandingTable.features.increment Tally.ofInsert_counters)

theorem execute_insertLabels {landing : Landing} (same : landing.labels = attempt.landing.labels) :
    (LandingStatement.execute landing (.insertLabels (work.labelsRows.map (·.toLabel attempt.now)))).2 =
      LandingTable.labels.increment
        ⟨(LandingTable.labels.tally work attempt).inserted, (LandingTable.labels.tally work attempt).skipped⟩ := by
  rw [LandingStatement.execute, same]
  exact congrArg LandingTable.labels.increment Tally.ofInsert_counters

/-- An attempt sees what the inserts it gets past return, whether or not they are applied. -/
theorem sees_eq : attempt.sees work =
    LandingTable.features.executed work attempt ++ LandingTable.labels.executed work attempt := by
  have labelsPart (landing : Landing) (same : landing.labels = attempt.landing.labels) :
      (executeAll LandingStatement.execute landing (if work.labelsRows ≠ [] ∧ attempt.pastLabelsInsert work then
        [.insertLabels (work.labelsRows.map (·.toLabel attempt.now))] else [])).2 =
      LandingTable.labels.executed work attempt := by
    simp only [LandingTable.executed, LandingTable.size, LandingTable.past, ne_eq, List.length_eq_zero_iff]
    split
    · rw [executeAll_cons, execute_insertLabels work attempt same]
      rfl
    · rfl
  rw [sees, Ending.sees, executed_statements, executeAll_append]
  by_cases features : work.featuresRows ≠ [] ∧ attempt.pastFirstInsert
  · have counted : LandingTable.features.size work ≠ 0 ∧ LandingTable.features.past work attempt :=
      features.imp_left fun some => some ∘ List.length_eq_zero_iff.mp
    rw [if_pos features, executeAll_cons, execute_insertFeatures, executeAll_nil]
    conv_rhs => rw [LandingTable.executed, if_pos counted]
    exact congrArg (List.cons _) (labelsPart _ rfl)
  · have uncounted : ¬(LandingTable.features.size work ≠ 0 ∧ LandingTable.features.past work attempt) :=
      fun counted => features (counted.imp_left fun some => some ∘ List.length_eq_zero_iff.mpr)
    rw [if_neg features, executeAll_nil]
    conv_rhs => rw [LandingTable.executed, if_neg uncounted]
    exact labelsPart _ rfl

/-- An attempt counts the inserts it gets past. -/
theorem sum_sees (table : LandingTable) (count : ConsumedCounters → Nat) (zero : count {} = 0) :
    ((attempt.sees work).map fun seen => count (table.counters seen)).sum = if table.past work attempt then
      count ⟨(table.tally work attempt).inserted, (table.tally work attempt).skipped⟩ else 0 := by
  rw [sees_eq, List.map_append, List.sum_append]
  cases table
  · rw [LandingTable.sum_executed _ _ _ _ zero, LandingTable.sum_executed _ _ _ _ zero]
    simp [LandingTable.counters, LandingTable.increment, zero]
  · rw [LandingTable.sum_executed _ _ _ _ zero, LandingTable.sum_executed _ _ _ _ zero]
    simp [LandingTable.counters, LandingTable.increment, zero]

theorem persisted_increments (table : LandingTable) : (table.counters (attempt.increments work)).persisted =
    if table.past work attempt then (table.tally work attempt).inserted else 0 := by
  rw [← sum_sees work attempt table (·.persisted) rfl]
  cases table <;> rfl

theorem skipped_increments (table : LandingTable) : (table.counters (attempt.increments work)).duplicateSkipped =
    if table.past work attempt then (table.tally work attempt).skipped else 0 := by
  rw [← sum_sees work attempt table (·.duplicateSkipped) rfl]
  cases table <;> rfl

/-- An attempt that is applied leaves the tables as `_write_batch` writes them. -/
theorem leaves_eq : attempt.leaves work =
    if attempt.applied then work.write attempt.now attempt.landing else attempt.landing := by
  have executed : (executeAll LandingStatement.execute attempt.landing (work.statements attempt.now)).1 =
      work.write attempt.now attempt.landing := by
    rw [Batch.statements, Batch.write, Landing.insert]
    by_cases features : work.featuresRows = []
    · by_cases labels : work.labelsRows = []
      · simp [features, labels]
      · simp [features, labels, executeAll_cons, LandingStatement.execute]
    · by_cases labels : work.labelsRows = []
      · simp [features, labels, executeAll_cons, LandingStatement.execute]
      · simp [features, labels, executeAll_cons, LandingStatement.execute]
  rw [leaves, Ending.leaves, executed, applied]

/-- The rows an attempt commits to each table. -/
def committedFeatures : Nat := (attempt.leaves work).features.length - attempt.landing.features.length

def committedLabels : Nat := (attempt.leaves work).labels.length - attempt.landing.labels.length

/-- The batch's rows that an attempt finds present or repeated. -/
def repeatedFeatures : Nat :=
  KeyedTable.repeats (·.eventId) attempt.landing.features (work.featuresRows.map (·.toFeature attempt.now))

def repeatedLabels : Nat :=
  KeyedTable.repeats (·.eventId) attempt.landing.labels (work.labelsRows.map (·.toLabel attempt.now))

/-- The same for either table. -/
def LandingTable.committed (table : LandingTable) : Nat :=
  match table with
  | features => attempt.committedFeatures work
  | labels => attempt.committedLabels work

def LandingTable.repeated (table : LandingTable) : Nat :=
  match table with
  | features => attempt.repeatedFeatures work
  | labels => attempt.repeatedLabels work

theorem committed_eq (table : LandingTable) : table.committed work attempt =
    if attempt.applied then (table.tally work attempt).inserted else 0 := by
  have grown {before after : Landing} (rows : Landing → Nat) (same : after = before) : rows after - rows before = 0 := by
    rw [same, Nat.sub_self]
  have leaves := leaves_eq work attempt
  by_cases applied : attempt.applied = true
  · rw [if_pos applied] at leaves ⊢
    cases table
    · rw [LandingTable.committed, committedFeatures, leaves, LandingTable.tally, Tally.ofInsert_inserted]
      rfl
    · rw [LandingTable.committed, committedLabels, leaves, LandingTable.tally, Tally.ofInsert_inserted]
      rfl
  · rw [if_neg applied] at leaves ⊢
    cases table
    · exact grown (·.features.length) leaves
    · exact grown (·.labels.length) leaves

end WriteAttempt

/-- `_write_with_retry` from an attempt on: it returns after one that
commits, and gives up after `max_retries` more. Others may write to the
landing tables between two attempts. -/
inductive Attempts (settings : IngestorSettings) (work : Batch) : Nat → Landing → List WriteAttempt → Prop
  | returns {number before attempt} : before.Extends attempt.landing → attempt.ending = .commits →
      Attempts settings work number before [attempt]
  | givesUp {number before attempt} : before.Extends attempt.landing → attempt.ending ≠ .commits →
      settings.maxRetries < number + 1 → Attempts settings work number before [attempt]
  | retries {number before attempt rest} : before.Extends attempt.landing → attempt.ending ≠ .commits →
      number + 1 ≤ settings.maxRetries → Attempts settings work (number + 1) (attempt.leaves work) rest →
      Attempts settings work number before (attempt :: rest)

/-- `_write_with_retry`; without rows there is no attempt. -/
inductive WritesWithRetry (settings : IngestorSettings) (work : Batch) (before : Landing) : List WriteAttempt → Prop
  | skips : work.featuresRows = [] → work.labelsRows = [] → WritesWithRetry settings work before []
  | tries {attempts} : ¬(work.featuresRows = [] ∧ work.labelsRows = []) → Attempts settings work 0 before attempts →
      WritesWithRetry settings work before attempts

/-- The counters and the tables agree: as many rows were persisted as are
committed, and skipped those the committing attempt found present or repeated. -/
structure Accounted (work : Batch) (attempts : List WriteAttempt) : Prop where
  featuresPersisted : (attempts.map fun a => (a.increments work).features.persisted).sum =
    (attempts.map (·.committedFeatures work)).sum
  labelsPersisted : (attempts.map fun a => (a.increments work).labels.persisted).sum =
    (attempts.map (·.committedLabels work)).sum
  featuresSkipped : (attempts.map fun a => (a.increments work).features.duplicateSkipped).sum =
    ((attempts.find? (·.applied)).map (·.repeatedFeatures work)).getD 0
  labelsSkipped : (attempts.map fun a => (a.increments work).labels.duplicateSkipped).sum =
    ((attempts.find? (·.applied)).map (·.repeatedLabels work)).getD 0

/-- Every row of the batch has its key in the landing tables. -/
def Batch.Stored (work : Batch) (landing : Landing) : Prop :=
  (∀ row ∈ work.featuresRows, characters row.event.eventId ∈ landing.features.map (·.eventId)) ∧
    ∀ row ∈ work.labelsRows, characters row.event.eventId ∈ landing.labels.map (·.eventId)

variable {settings : IngestorSettings} {work : Batch} {number : Nat} {before : Landing}
  {attempts : List WriteAttempt} {attempt : WriteAttempt}

theorem Batch.Stored.mono {landing after : Landing} (stored : work.Stored landing) (grows : landing.Extends after) :
    work.Stored after :=
  ⟨fun row member => (grows.1.map _).subset (stored.1 row member),
    fun row member => (grows.2.map _).subset (stored.2 row member)⟩

theorem stored_write (work : Batch) (now : Int) (landing : Landing) : work.Stored (work.write now landing) :=
  ⟨fun _ member =>
      KeyedTable.key_mem_insertIgnore (fun r : HiggsFeatureEvent => r.eventId) (List.mem_map_of_mem member),
    fun _ member =>
      KeyedTable.key_mem_insertIgnore (fun r : HiggsLabelEvent => r.eventId) (List.mem_map_of_mem member)⟩

theorem extends_leaves (work : Batch) (attempt : WriteAttempt) : attempt.landing.Extends (attempt.leaves work) := by
  rw [WriteAttempt.leaves_eq]
  split
  · exact Landing.extends_insert _ _ _
  · exact Landing.Extends.refl _

/-- An attempt that finds the whole batch stored inserts nothing. -/
theorem inserted_of_stored (stored : work.Stored attempt.landing) (table : WriteAttempt.LandingTable) :
    (table.tally work attempt).inserted = 0 := by
  cases table
  · refine Tally.ofInsert_present fun r member => ?_
    obtain ⟨row, inRows, rfl⟩ := List.mem_map.mp member
    exact stored.1 row inRows
  · refine Tally.ofInsert_present fun r member => ?_
    obtain ⟨row, inRows, rfl⟩ := List.mem_map.mp member
    exact stored.2 row inRows

theorem Attempts.inserted_of_stored (run : Attempts settings work number before attempts)
    (stored : work.Stored before) (table : WriteAttempt.LandingTable) :
    ∀ a ∈ attempts, (table.tally work a).inserted = 0 := by
  induction run with
  | returns grows | givesUp grows =>
    intro a member
    rw [List.mem_singleton.mp member]
    exact Amel.inserted_of_stored (stored.mono grows) table
  | @retries number before attempt rest grows _ _ _ ih =>
    intro a member
    rcases List.mem_cons.mp member with rfl | later
    · exact Amel.inserted_of_stored (stored.mono grows) table
    · exact ih ((stored.mono grows).mono (extends_leaves work attempt)) a later

/-- After an applied attempt none inserts a row. -/
theorem Attempts.once (run : Attempts settings work number before attempts) (table : WriteAttempt.LandingTable) :
    attempts.Pairwise fun a later => a.applied → (table.tally work later).inserted = 0 := by
  induction run with
  | returns | givesUp => exact List.pairwise_singleton _ _
  | @retries number before attempt rest _ _ _ onward ih =>
    refine List.pairwise_cons.mpr ⟨fun later member applied => ?_, ih⟩
    have stored : work.Stored (attempt.leaves work) := by
      rw [WriteAttempt.leaves_eq, if_pos applied]
      exact stored_write work _ _
    exact onward.inserted_of_stored stored table later member

theorem applied_past (applied : attempt.applied = true) (table : WriteAttempt.LandingTable) :
    table.past work attempt = true := by
  obtain ⟨now, landing, ending⟩ := attempt
  cases ending with
  | commits | commitRaises => cases table <;> rfl
  | raises => cases applied

theorem pastLabels_pastFirst (pastLabels : attempt.pastLabelsInsert work = true) : attempt.pastFirstInsert = true := by
  obtain ⟨now, landing, ending⟩ := attempt
  cases ending with
  | commits | commitRaises => rfl
  | raises executed =>
    simp only [WriteAttempt.pastLabelsInsert, decide_eq_true_eq] at pastLabels
    exact decide_eq_true (by omega)

theorem Attempts.sequence (run : Attempts settings work number before attempts) (table : WriteAttempt.LandingTable) :
    Tally.Sequence (table.size work) (attempts.map (table.tally work)) where
  whole := fun t member => by
    obtain ⟨a, _, rfl⟩ := List.mem_map.mp member
    exact table.tally_whole work a
  seen := fun t member applied => by
    obtain ⟨a, _, rfl⟩ := List.mem_map.mp member
    rw [WriteAttempt.LandingTable.tally_applied] at applied
    rw [WriteAttempt.LandingTable.tally_seen]
    exact applied_past applied table
  once := List.pairwise_map.mpr ((run.once table).imp fun onward applied =>
    onward ((table.tally_applied work _).symm.trans applied))

/-- The law of the counters is the one of the two tables' tallies. -/
theorem accounted_iff_agrees (work : Batch) (attempts : List WriteAttempt) :
    Accounted work attempts ↔
      ∀ table : WriteAttempt.LandingTable, Tally.Agrees (attempts.map (table.tally work)) := by
  have agree (table : WriteAttempt.LandingTable) : Tally.Agrees (attempts.map (table.tally work)) ↔
      (attempts.map fun a => (table.counters (a.increments work)).persisted).sum =
          (attempts.map fun a => table.committed work a).sum ∧
        (attempts.map fun a => (table.counters (a.increments work)).duplicateSkipped).sum =
          ((attempts.find? (·.applied)).map fun a => table.repeated work a).getD 0 := by
    simp only [WriteAttempt.persisted_increments, WriteAttempt.skipped_increments, WriteAttempt.committed_eq,
      Tally.Agrees, List.map_map, List.find?_map, Option.map_map, Function.comp_def,
      WriteAttempt.LandingTable.tally_seen, WriteAttempt.LandingTable.tally_applied]
    cases table <;> rfl
  simp only [agree]
  exact ⟨fun law table => by
      cases table
      · exact ⟨law.featuresPersisted, law.featuresSkipped⟩
      · exact ⟨law.labelsPersisted, law.labelsSkipped⟩,
    fun law => ⟨(law .features).1, (law .labels).1, (law .features).2, (law .labels).2⟩⟩

/-- The counters agree with the tables exactly when the only attempt that
gets past its first insert is one whose transaction is applied. -/
theorem accounted_iff (run : WritesWithRetry settings work before attempts) :
    Accounted work attempts ↔
      attempts.countP (·.pastFirstInsert) = if attempts.any (·.applied) then 1 else 0 := by
  rw [accounted_iff_agrees]
  cases run with
  | skips => simp [Tally.Agrees]
  | tries someRows run =>
    have seen (table : WriteAttempt.LandingTable) :
        (attempts.map (table.tally work)).countP (·.seen) = attempts.countP (table.past work) := by
      rw [List.countP_map]
      exact List.countP_congr fun a _ => by rw [Function.comp_apply, table.tally_seen]
    have applied (table : WriteAttempt.LandingTable) :
        (attempts.map (table.tally work)).any (·.applied) = attempts.any (·.applied) := by
      rw [List.any_map]
      exact congrArg attempts.any (funext fun a => table.tally_applied work a)
    have few := (run.sequence .labels).countP_applied_le
    have fewer : attempts.countP (·.pastLabelsInsert work) ≤ attempts.countP (·.pastFirstInsert) :=
      List.countP_mono_left fun a _ => pastLabels_pastFirst
    have agrees (table : WriteAttempt.LandingTable) : Tally.Agrees (attempts.map (table.tally work)) ↔
        table.size work = 0 ∨ attempts.countP (table.past work) = if attempts.any (·.applied) then 1 else 0 := by
      rw [(run.sequence table).agrees_iff, seen, applied]
    rw [seen, applied] at few
    simp only [agrees]
    constructor
    · intro both
      rcases both .features with noFeatures | once
      · -- the labels are then the first insert
        have empty : work.featuresRows = [] := List.length_eq_zero_iff.mp noFeatures
        have same : attempts.countP (·.pastFirstInsert) = attempts.countP (·.pastLabelsInsert work) := by
          refine List.countP_congr fun a _ => ?_
          simp only [WriteAttempt.pastFirstInsert, WriteAttempt.pastLabelsInsert, empty, if_true]
        rw [same]
        exact (both .labels).resolve_left fun noLabels => someRows ⟨empty, List.length_eq_zero_iff.mp noLabels⟩
      · exact once
    · intro once table
      cases table
      · exact Or.inr once
      · exact Or.inr (le_antisymm (fewer.trans_eq once) (few.1.trans few.2))

/-- A batch of one feature event. -/
def oneFeature : Batch where
  featuresRows :=
    [⟨⟨text "feat-1", text "1", ⟨0, none⟩, text "1.0.0", text "source_simulator", [], text "trace"⟩, 0, 0⟩]

/-- An attempt that fails before its insert counts nothing; the next one counts what it commits. -/
theorem accounted_after_early_failure : Accounted oneFeature [⟨0, {}, .raises 0⟩, ⟨1, {}, .commits⟩] :=
  have run : WritesWithRetry {} _ {} _ := .tries (by decide) (.retries (Landing.Extends.refl _) (by decide) (by decide)
    (.returns (Landing.Extends.refl _) rfl))
  (accounted_iff run).mpr (by decide)

/-- A commit that fails and is rolled back leaves its row counted; the retry counts it again. -/
theorem persisted_counted_twice :
    ¬∀ (settings : IngestorSettings) (work : Batch) (before : Landing) (attempts : List WriteAttempt),
      WritesWithRetry settings work before attempts → Accounted work attempts := by
  intro accounted
  have run : WritesWithRetry {} oneFeature {} [⟨0, {}, .commitRaises false⟩, ⟨1, {}, .commits⟩] :=
    .tries (by decide) (.retries (Landing.Extends.refl _) (by decide) (by decide)
      (.returns (Landing.Extends.refl _) rfl))
  exact absurd (accounted _ _ _ _ run).featuresPersisted (by decide)

end Amel
