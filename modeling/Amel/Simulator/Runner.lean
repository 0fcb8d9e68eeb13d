import Mathlib.Data.String.Basic
import Amel.Pipeline.WatermarkInvariant
import Amel.Simulator.Payload

namespace Amel

/-- A run of the simulator: `enumerate(rows, start=startIndex)` over the
first rows of the dataset, again from the first when they are used up. -/
structure Runner where
  startIndex : Nat
  rows : List HiggsRow
  yielded : Nat := 0

def Runner.index (runner : Runner) : Nat := runner.startIndex + runner.yielded

/-- The row of the dataset that the run uses for an index. -/
def Runner.rowOf (runner : Runner) (index : Nat) : Nat := (index - runner.startIndex) % runner.rows.length

/-- The runs of the simulator with what they sent. `computed` is the start
index a script has read for the next run; a record is in flight until it
stands in a partition of its topic or is lost. -/
structure Source where
  computed : Option Nat := none
  runner : Option Runner := none
  inFlight : List (Stream × Record) := []
  log : Stream → Nat → List Record := fun _ _ => []

/-- `higgs_start_index`; `none` where the arithmetic of the shell fails. -/
def higgsStartIndex (landing : Landing) : Option Nat :=
  let maxid := ((landing.features.map (·.entityId)).max?.getD "higgs-000000000").toList
  let digits := if "higgs-".toList.isPrefixOf maxid then maxid.drop 6 else maxid
  if digits ≠ [] ∧ digits.all Char.isDigit then some (Nat.ofDigitChars 10 digits 0 + 1) else none

inductive SourceAction
  | computeStartIndex
  | start (maxRows : Nat)
  | publish (feature : FeatureDraw) (label : LabelDraw)
  | arrive (partition : Nat)
  | lose
  | stop

/-- One `_send`, or two of the same payload. -/
def sends (stream : Stream) (record : Record) (duplicate : Bool) : List (Stream × Record) :=
  List.replicate (if duplicate then 2 else 1) (stream, record)

def Source.append (s : Source) (stream : Stream) (partition : Nat) (record : Record) : Source :=
  { s with
    log := Function.update s.log stream
      (Function.update (s.log stream) partition (s.log stream partition ++ [record])) }

/-- One step of the simulator side. A publication puts the feature event and
the delayed label event of the next row in flight; what is in flight arrives
in any order, or never. -/
inductive Source.Step (dataset : List HiggsRow) (landing : Landing) : Source → SourceAction → Source → Prop
  | computeStartIndex {s startIndex} : higgsStartIndex landing = some startIndex →
      Step dataset landing s .computeStartIndex { s with computed := some startIndex }
  | start {s startIndex maxRows} : s.runner = none → s.computed = some startIndex →
      Step dataset landing s (.start maxRows)
        { s with computed := none, runner := some { startIndex, rows := dataset.take maxRows } }
  | publish {s runner row feature label} : s.runner = some runner →
      runner.rows[runner.rowOf runner.index]? = some row →
      Step dataset landing s (.publish feature label)
        { s with
          runner := some { runner with yielded := runner.yielded + 1 }
          inFlight := s.inFlight ++
            (sends .features (.feature runner.index (runner.rowOf runner.index) row feature) feature.duplicate ++
              sends .labels (.label runner.index (runner.rowOf runner.index) row label) label.duplicate) }
  | arrive {s before stream record later partition} : s.inFlight = before ++ (stream, record) :: later →
      Step dataset landing s (.arrive partition)
        ({ s with inFlight := before ++ later }.append stream partition record)
  | lose {s before sent later} : s.inFlight = before ++ sent :: later →
      Step dataset landing s .lose { s with inFlight := before ++ later }
  | stop {s} : Step dataset landing s .stop { s with runner := none }

/-- The record is in flight or in a partition. -/
def Source.Holds (s : Source) (record : Record) : Prop :=
  (∃ stream, (stream, record) ∈ s.inFlight) ∨ ∃ stream partition, record ∈ s.log stream partition

/-- Events that were not corrupted and have one index are of one row of the
dataset, and from the start index of the current run on it is the row that
this run uses. -/
structure Source.Aligned (s : Source) : Prop where
  agree : ∀ a b, s.Holds a → s.Holds b → a.malformed = false → b.malformed = false → a.index = b.index →
    a.datasetRow = b.datasetRow
  current : ∀ runner, s.runner = some runner → ∀ record, s.Holds record → record.malformed = false →
    runner.startIndex ≤ record.index → record.datasetRow = runner.rowOf record.index

/-- No event of an earlier run that was not corrupted is in flight or in
Kafka at the index at which the next run starts or beyond, unless it is of
the row that the next run uses there. -/
def Source.Clear (dataset : List HiggsRow) (s : Source) : SourceAction → Prop
  | .start maxRows => ∀ startIndex, s.computed = some startIndex → ∀ record, s.Holds record →
    record.malformed = false → startIndex ≤ record.index →
    record.datasetRow = (Runner.mk startIndex (dataset.take maxRows) 0).rowOf record.index
  | _ => True

variable {dataset : List HiggsRow} {landing : Landing} {s after : Source} {action : SourceAction}

/-- Behind the prefix of an entity id stand the digits of its index. -/
theorem strip_higgsEntityId (index : Nat) :
    (if "higgs-".toList.isPrefixOf (higgsEntityId index).toList then (higgsEntityId index).toList.drop 6
      else (higgsEntityId index).toList) = Python.zeroPad 9 index := by
  have starts : "higgs-".toList.isPrefixOf ("higgs-".toList ++ Python.zeroPad 9 index) :=
    List.isPrefixOf_iff_prefix.mpr (List.prefix_append ..)
  rw [higgsEntityId_toList, if_pos starts]
  exact List.drop_left' (by decide)

theorem zeroPad_isNumber (width n : Nat) :
    Python.zeroPad width n ≠ [] ∧ (Python.zeroPad width n).all Char.isDigit = true :=
  ⟨Python.zeroPad_ne_nil width n, List.all_eq_true.mpr (Python.zeroPad_isDigit width n)⟩

/-- The script reads back the index that the entity id was made of. -/
theorem higgsStartIndex_of_max {index : Nat}
    (maximum : (landing.features.map (·.entityId)).max?.getD "higgs-000000000" = higgsEntityId index) :
    higgsStartIndex landing = some (index + 1) := by
  unfold higgsStartIndex
  dsimp only
  rw [maximum, strip_higgsEntityId, if_pos (zeroPad_isNumber 9 index), Python.ofDigitChars_zeroPad]

theorem Source.mem_append {stream topic : Stream} {partition place : Nat} {record new : Record}
    (member : record ∈ (s.append stream partition new).log topic place) :
    record ∈ s.log topic place ∨ record = new := by
  by_cases same : topic = stream
  · subst same
    by_cases here : place = partition
    · subst here
      simpa only [append, Function.update_self, List.mem_append, List.mem_singleton] using member
    · exact Or.inl (by simpa only [append, Function.update_self, Function.update_of_ne here] using member)
  · exact Or.inl (by simpa only [append, Function.update_of_ne same] using member)

/-- Kafka keeps what it has, at its offset. -/
theorem Source.append_keeps (s : Source) (stream : Stream) (partition : Nat) (new : Record) (topic : Stream)
    (place : Nat) : s.log topic place <+: (s.append stream partition new).log topic place := by
  by_cases same : topic = stream
  · subst same
    by_cases here : place = partition
    · subst here
      simp only [append, Function.update_self]
      exact List.prefix_append ..
    · simp only [append, Function.update_self, Function.update_of_ne here]
      exact List.prefix_rfl
  · simp only [append, Function.update_of_ne same]
    exact List.prefix_rfl

theorem of_mem_sends {stream topic : Stream} {record new : Record} {duplicate : Bool}
    (member : (topic, record) ∈ sends stream new duplicate) : record = new :=
  (Prod.mk.inj (List.eq_of_mem_replicate member)).2

namespace Source.Step

theorem log (taken : Source.Step dataset landing s action after) (stream : Stream) (partition : Nat) :
    s.log stream partition <+: after.log stream partition := by
  cases taken with
  | arrive => exact append_keeps ..
  | _ => exact List.prefix_rfl

/-- Nothing is held that was not held before, except the events of the next
index of the run. -/
theorem holds (taken : Source.Step dataset landing s action after) {record : Record} (held : after.Holds record) :
    s.Holds record ∨ ∃ runner, s.runner = some runner ∧ record.index = runner.index ∧
      record.datasetRow = runner.rowOf runner.index := by
  cases taken with
  | publish running =>
    rcases held with ⟨stream, sent⟩ | inLog
    · rcases List.mem_append.mp sent with old | new
      · exact Or.inl (Or.inl ⟨stream, old⟩)
      · refine Or.inr ⟨_, running, ?_⟩
        rcases List.mem_append.mp new with feature | label
        · exact of_mem_sends feature ▸ Record.feature_of ..
        · exact of_mem_sends label ▸ Record.label_of ..
    · exact Or.inl (Or.inr inLog)
  | @arrive before stream new later partition split =>
    left
    rcases held with ⟨topic, sent⟩ | ⟨topic, place, inLog⟩
    · refine Or.inl ⟨topic, ?_⟩
      rw [split]
      rcases List.mem_append.mp sent with inLeft | inRight
      · exact List.mem_append_left _ inLeft
      · exact List.mem_append_right _ (List.mem_cons_of_mem _ inRight)
    · rcases mem_append inLog with old | rfl
      · exact Or.inr ⟨topic, place, old⟩
      · exact Or.inl ⟨stream, split ▸ List.mem_append_right _ (List.mem_cons_self ..)⟩
  | @lose before sent later split =>
    rcases held with ⟨topic, kept⟩ | inLog
    · refine Or.inl (Or.inl ⟨topic, ?_⟩)
      rw [split]
      rcases List.mem_append.mp kept with inLeft | inRight
      · exact List.mem_append_left _ inLeft
      · exact List.mem_append_right _ (List.mem_cons_of_mem _ inRight)
    · exact Or.inl (Or.inr inLog)
  | _ => exact Or.inl held

/-- A run goes on with its start index and its rows, or it is started. -/
theorem runner (taken : Source.Step dataset landing s action after) {runner : Runner}
    (running : after.runner = some runner) :
    (∃ earlier, s.runner = some earlier ∧ runner.startIndex = earlier.startIndex ∧ runner.rows = earlier.rows) ∨
    ∃ startIndex maxRows, action = .start maxRows ∧ s.computed = some startIndex ∧ s.runner = none ∧
      runner = { startIndex, rows := dataset.take maxRows } := by
  cases taken with
  | start idle computed => cases running; exact Or.inr ⟨_, _, rfl, computed, idle, rfl⟩
  | publish before => cases running; exact Or.inl ⟨_, before, rfl, rfl⟩
  | stop => cases running
  | _ => exact Or.inl ⟨_, running, rfl, rfl⟩

end Source.Step

theorem Runner.rowOf_congr {runner earlier : Runner} (startIndex : runner.startIndex = earlier.startIndex)
    (rows : runner.rows = earlier.rows) (index : Nat) : runner.rowOf index = earlier.rowOf index := by
  rw [rowOf, rowOf, startIndex, rows]

/-- An event of the next index agrees with whatever is held of that index:
there the run's own row is the rule. -/
theorem Source.Aligned.next (aligned : s.Aligned) {runner : Runner} (running : s.runner = some runner)
    {a b : Record} (held : s.Holds a) (valid : a.malformed = false) (index : b.index = runner.index)
    (row : b.datasetRow = runner.rowOf runner.index) (same : a.index = b.index) : a.datasetRow = b.datasetRow := by
  have reached : runner.startIndex ≤ a.index := by
    rw [same, index]
    exact Nat.le_add_right ..
  rw [aligned.current runner running a held valid reached, row, same, index]

theorem Source.Aligned.step (aligned : s.Aligned) (clear : s.Clear dataset action)
    (taken : Source.Step dataset landing s action after) : after.Aligned := by
  refine ⟨fun a b heldA heldB validA validB same => ?_, fun runner running record held valid reached => ?_⟩
  · rcases taken.holds heldA with oldA | ⟨runner, running, indexA, rowA⟩
    · rcases taken.holds heldB with oldB | ⟨runner, running, indexB, rowB⟩
      · exact aligned.agree a b oldA oldB validA validB same
      · exact aligned.next running oldA validA indexB rowB same
    · rcases taken.holds heldB with oldB | ⟨other, runs, indexB, rowB⟩
      · exact (aligned.next running oldB validB indexA rowA same.symm).symm
      · cases running.symm.trans runs
        rw [rowA, rowB]
  · rcases taken.runner running with
      ⟨earlier, ran, startIndex, rows⟩ | ⟨startIndex, maxRows, rfl, computed, idle, rfl⟩
    · rw [Runner.rowOf_congr startIndex rows]
      rcases taken.holds held with old | ⟨current, runs, index, row⟩
      · exact aligned.current earlier ran record old valid (startIndex ▸ reached)
      · cases ran.symm.trans runs
        rw [row, index]
    · rcases taken.holds held with old | ⟨current, runs, -⟩
      · exact clear startIndex computed record old valid reached
      · cases idle.symm.trans runs

end Amel
