import Mathlib.Data.List.Sort
import Amel.Library.Windows
import Amel.Db.Models
import Amel.Lake.Validation
import Amel.Lake.Watermark

namespace Amel

def featuresPipeline : String := "higgs_features"

def labelsPipeline : String := "higgs_labels"

def upsertBatchSize : Nat := 2000

/-- `[rows[i : i + size] for i in range(0, len(rows), size)]`. -/
def chunked {Row : Type} (rows : List Row) (size : Nat) : List (List Row) :=
  (List.range ((rows.length + size - 1) / size)).map fun i => (rows.drop (i * size)).take size

theorem flatten_chunks {Row : Type} (rows : List Row) (size count : Nat) :
    ((List.range count).map fun i => (rows.drop (i * size)).take size).flatten = rows.take (count * size) := by
  induction count with
  | zero => simp
  | succ count ih =>
    rw [List.range_succ, List.map_append, List.flatten_append, ih, List.map_singleton, List.flatten_singleton,
      Nat.succ_mul, List.take_add]

theorem flatten_chunked {Row : Type} (rows : List Row) {size : Nat} (positive : 0 < size) :
    (chunked rows size).flatten = rows := by
  rw [chunked, flatten_chunks]
  have enough : rows.length + size - 1 < ((rows.length + size - 1) / size + 1) * size :=
    Nat.lt_mul_of_div_lt (Nat.lt_succ_self _) positive
  rw [Nat.succ_mul] at enough
  exact List.take_of_length_le (by omega)

/-- A row of the feature frames: FEATURE_COLUMNS, the 28 of HIGGS in order. -/
structure FeatureRow where
  eventId : String
  entityId : String
  eventTimestamp : Int
  schemaVersion : String
  features : Features
  deriving DecidableEq, Repr

/-- A row of the label frames: LABEL_COLUMNS. -/
structure LabelRow where
  eventId : String
  entityId : String
  target : Int
  labelTimestamp : Int
  schemaVersion : String
  deriving DecidableEq, Repr

structure WatermarkBounds where
  featuresWatermark : Int
  labelsWatermark : Int
  upperBound : Int
  deriving DecidableEq, Repr

/-- The HIGGS columns of a record; a column it does not have is NaN. -/
def higgsColumns (features : Features) : Features :=
  higgsFeatureNames.map fun name => (name, (features.lookup name).getD Float64.nan)

def HiggsFeatureEvent.toRow (r : HiggsFeatureEvent) : FeatureRow :=
  ⟨r.eventId, r.entityId, r.eventTimestamp, r.schemaVersion, higgsColumns r.features⟩

def HiggsLabelEvent.toRow (r : HiggsLabelEvent) : LabelRow :=
  ⟨r.eventId, r.entityId, r.target, r.labelTimestamp, r.schemaVersion⟩

/-- The landing rows of the extraction window `(watermark, upper_bound]`. -/
def selectFeatures (landing : Landing) (watermark upperBound : Int) : List HiggsFeatureEvent :=
  (landing.features.filter fun r => watermark < r.ingestedAt ∧ r.ingestedAt ≤ upperBound).insertionSort
    fun a b => a.ingestedAt ≤ b.ingestedAt

def selectLabels (landing : Landing) (watermark upperBound : Int) : List HiggsLabelEvent :=
  (landing.labels.filter fun r => watermark < r.ingestedAt ∧ r.ingestedAt ≤ upperBound).insertionSort
    fun a b => a.ingestedAt ≤ b.ingestedAt

def transformFeatures (df : List FeatureRow) : List FeatureRow := df.insertionSort fun a b => a.eventId ≤ b.eventId

def transformLabels (df : List LabelRow) : List LabelRow := df.insertionSort fun a b => a.eventId ≤ b.eventId

def FeatureRow.curated (r : FeatureRow) (runId : String) : CuratedHiggsFeature :=
  ⟨r.eventId, r.entityId, r.eventTimestamp, r.schemaVersion, higgsColumns r.features, runId⟩

def LabelRow.curated (r : LabelRow) (runId : String) : CuratedHiggsLabel :=
  ⟨r.eventId, r.entityId, r.target, r.labelTimestamp, r.schemaVersion, runId⟩

/-- The table after the upsert, and the number of rows inserted. -/
def updateCuratedFeatures (table : List CuratedHiggsFeature) (df : List FeatureRow) (runId : String) :
    List CuratedHiggsFeature × Nat :=
  KeyedTable.insertBatches (·.eventId) table (chunked (df.map (·.curated runId)) upsertBatchSize)

def updateCuratedLabels (table : List CuratedHiggsLabel) (df : List LabelRow) (runId : String) :
    List CuratedHiggsLabel × Nat :=
  KeyedTable.insertBatches (·.eventId) table (chunked (df.map (·.curated runId)) upsertBatchSize)

/-- The join of all curated features and labels on the entity id, for the
entities without a training record. The query leaves its order open. -/
def buildTrainingDataset (features : List CuratedHiggsFeature) (labels : List CuratedHiggsLabel)
    (recorded : List CuratedTrainingRecord) (runId : String) : List CuratedTrainingRecord :=
  (features.filter fun feat => feat.entityId ∉ recorded.map (·.entityId)).flatMap fun feat =>
    (labels.filter fun label => feat.entityId = label.entityId).map fun label =>
      { entityId := feat.entityId, featureEventId := feat.eventId, labelEventId := label.eventId
        eventTimestamp := feat.eventTimestamp, features := feat.features, target := label.target
        schemaVersion := feat.schemaVersion, sourceRunId := runId }

def upsertTrainingRecords (table df : List CuratedTrainingRecord) : List CuratedTrainingRecord × Nat :=
  KeyedTable.insertBatches (·.entityId) table (chunked df upsertBatchSize)

def materializeChunkRows : ℕ+ := 25000

def windowEndPad : Int := 1

def materializeWindows (start stop : Int) (boundaries : List Int) : List (Int × Int) :=
  Windows.split start stop boundaries

def materializeWindowsForRun (table : List CuratedHiggsFeature) (runId : String) (chunkRows : ℕ+) :
    List (Int × Int) :=
  let timestamps := (table.filter fun r => r.sourceRunId = runId).map (·.eventTimestamp)
  match timestamps.min?, timestamps.max? with
  | some lo, some hi =>
    materializeWindows lo (hi + windowEndPad) (Windows.everyNth chunkRows (timestamps.insertionSort (· ≤ ·)))
  | _, _ => []

theorem mem_selectFeatures {landing : Landing} {watermark upperBound : Int} {r : HiggsFeatureEvent} :
    r ∈ selectFeatures landing watermark upperBound ↔
      r ∈ landing.features ∧ watermark < r.ingestedAt ∧ r.ingestedAt ≤ upperBound := by
  simp [selectFeatures]

theorem mem_selectLabels {landing : Landing} {watermark upperBound : Int} {r : HiggsLabelEvent} :
    r ∈ selectLabels landing watermark upperBound ↔
      r ∈ landing.labels ∧ watermark < r.ingestedAt ∧ r.ingestedAt ≤ upperBound := by
  simp [selectLabels]

/-- The chunks insert what one statement would. -/
theorem updateCuratedFeatures_fst (table : List CuratedHiggsFeature) (df : List FeatureRow) (runId : String) :
    (updateCuratedFeatures table df runId).1 =
      KeyedTable.insertIgnore (·.eventId) table (df.map (·.curated runId)) := by
  rw [updateCuratedFeatures, KeyedTable.insertBatches_fst, flatten_chunked _ (by decide)]

theorem updateCuratedLabels_fst (table : List CuratedHiggsLabel) (df : List LabelRow) (runId : String) :
    (updateCuratedLabels table df runId).1 =
      KeyedTable.insertIgnore (·.eventId) table (df.map (·.curated runId)) := by
  rw [updateCuratedLabels, KeyedTable.insertBatches_fst, flatten_chunked _ (by decide)]

theorem upsertTrainingRecords_fst (table df : List CuratedTrainingRecord) :
    (upsertTrainingRecords table df).1 = KeyedTable.insertIgnore (·.entityId) table df := by
  rw [upsertTrainingRecords, KeyedTable.insertBatches_fst, flatten_chunked _ (by decide)]

theorem upsertTrainingRecords_snd (table df : List CuratedTrainingRecord) :
    table.length + (upsertTrainingRecords table df).2 = (upsertTrainingRecords table df).1.length :=
  KeyedTable.insertBatches_snd _ table _

/-- The windows of a run cover its rows: the last one ends a microsecond
past the largest timestamp, so there is a proper window even for one row. -/
theorem materializeWindowsForRun_covers {table : List CuratedHiggsFeature} {runId : String} (chunkRows : ℕ+)
    {r : CuratedHiggsFeature} (member : r ∈ table) (source : r.sourceRunId = runId) :
    ∃ w ∈ materializeWindowsForRun table runId chunkRows, w.1 ≤ r.eventTimestamp ∧ r.eventTimestamp ≤ w.2 := by
  have present : r.eventTimestamp ∈ (table.filter fun r => r.sourceRunId = runId).map (·.eventTimestamp) :=
    List.mem_map_of_mem (List.mem_filter.mpr ⟨member, by simpa using source⟩)
  unfold materializeWindowsForRun
  generalize (table.filter fun r => r.sourceRunId = runId).map (·.eventTimestamp) = timestamps at present ⊢
  cases least : timestamps.min? with
  | none => rw [List.min?_eq_none_iff.mp least] at present; cases present
  | some lo =>
    cases greatest : timestamps.max? with
    | none => rw [List.max?_eq_none_iff.mp greatest] at present; cases present
    | some hi =>
      have low := (List.min?_eq_some_iff.mp least).2 _ present
      have high := (List.max?_eq_some_iff.mp greatest).2 _ present
      have padded : hi < hi + windowEndPad := by unfold windowEndPad; omega
      simp only [least, greatest]
      exact Windows.split_covers _ (by omega) low (by omega : r.eventTimestamp ≤ hi + windowEndPad)

end Amel
