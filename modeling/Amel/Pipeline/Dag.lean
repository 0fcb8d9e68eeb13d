import Mathlib.Data.List.AList
import Amel.Lake.Keys
import Amel.Library.Fleet
import Amel.Pipeline.Tasks

namespace Amel

/-- A landing transaction in progress. Its rows carry its start time and
become visible when it commits. -/
structure LandingTransaction where
  startedAt : Int
  features : List HiggsFeatureEvent
  labels : List HiggsLabelEvent
  deriving DecidableEq, Repr

/-- The content of a Parquet object in the bronze or silver bucket. -/
inductive Frame
  | features (df : List FeatureRow)
  | labels (df : List LabelRow)
  deriving DecidableEq, Repr

/-- The files of a staging directory. -/
structure Staging where
  rawFeatures : Option (List FeatureRow) := none
  rawLabels : Option (List LabelRow) := none
  validFeatures : Option (List FeatureRow) := none
  validLabels : Option (List LabelRow) := none
  silverFeatures : Option (List FeatureRow) := none
  silverLabels : Option (List LabelRow) := none

/-- The rows the two extraction queries of a run returned. With them stands,
for the record, which landing transactions were open at each query. -/
structure Extraction where
  features : List HiggsFeatureEvent
  labels : List HiggsLabelEvent
  openAtFeatures : List LandingTransaction
  openAtLabels : List LandingTransaction

/-- A commit of `update_curated_tables`, for the record. -/
structure Commit where
  runId : String
  bounds : WatermarkBounds
  extraction : Extraction

/-- What the tasks of all runs share. `commits`, `unwritten` (the frames
upserted into the training records and not yet put) and `requests` (the
materialize requests that succeeded, with the run that made them) only
record what happened. -/
structure World where
  clock : Int
  landing : Landing := {}
  transactions : List LandingTransaction := []
  curatedFeatures : List CuratedHiggsFeature := []
  curatedLabels : List CuratedHiggsLabel := []
  trainingRecords : List CuratedTrainingRecord := []
  watermarks : Watermarks := fun _ => none
  pipelineRuns : String → Option PipelineRun := fun _ => none
  bronze : String → Option Frame := fun _ => none
  silver : String → Option Frame := fun _ => none
  gold : AList (fun _ : String => List CuratedTrainingRecord) := ∅
  reports : String → Option (ValidationReport × ValidationReport) := fun _ => none
  staging : String → Staging := fun _ => {}
  requests : List (String × Int × Int) := []
  commits : List Commit := []
  unwritten : List (String × List CuratedTrainingRecord) := []

inductive Task
  | determineHighWatermark
  | extractNewRecords
  | writeBronze
  | validate
  | transform
  | writeSilver
  | updateCuratedTables
  | buildTrainingDataset
  | updateFeatureStore
  | emitPipelineMetadata
  deriving DecidableEq, Repr

namespace Task

def taskId : Task → String
  | determineHighWatermark => "determine_high_watermark_task"
  | extractNewRecords => "extract_new_records_task"
  | writeBronze => "write_bronze_task"
  | validate => "validate_task"
  | transform => "transform_task"
  | writeSilver => "write_silver_task"
  | updateCuratedTables => "update_curated_tables_task"
  | buildTrainingDataset => "build_training_dataset_task"
  | updateFeatureStore => "update_feature_store_task"
  | emitPipelineMetadata => "emit_pipeline_metadata_task"

/-- The place in the chain of tasks. -/
def index : Task → Nat
  | determineHighWatermark => 0
  | extractNewRecords => 1
  | writeBronze => 2
  | validate => 3
  | transform => 4
  | writeSilver => 5
  | updateCuratedTables => 6
  | buildTrainingDataset => 7
  | updateFeatureStore => 8
  | emitPipelineMetadata => 9

end Task

/-- Where a DAG run stands: waiting for an attempt of a task, or between two
effects of one attempt. -/
inductive Position
  | idle
  | waiting (task : Task)
  | featuresWatermarkRead (featuresWatermark : Int)
  | featuresExtracted (features : List HiggsFeatureEvent) (openAtFeatures : List LandingTransaction)
  | bronzeFeaturesPut
  | silverFeaturesPut
  | curatedCommitted (featuresUpserted labelsUpserted : Nat)
  | trainingBuilt (df : List CuratedTrainingRecord)
  | trainingUpserted (df : List CuratedTrainingRecord) (newCount : Nat)
  | posting (windows : List (Int × Int))
  | runRecorded
  | failed (task : Task)
  | succeeded

/-- The task an attempt of which is due or under way. -/
def Position.task : Position → Option Task
  | idle | failed _ | succeeded => none
  | waiting task => some task
  | featuresWatermarkRead _ => some .determineHighWatermark
  | featuresExtracted _ _ => some .extractNewRecords
  | bronzeFeaturesPut => some .writeBronze
  | silverFeaturesPut => some .writeSilver
  | curatedCommitted _ _ => some .updateCuratedTables
  | trainingBuilt _ | trainingUpserted _ _ => some .buildTrainingDataset
  | posting _ => some .updateFeatureStore
  | runRecorded => some .emitPipelineMetadata

/-- The last task that was ever started since the last clear. -/
def Position.frontier : Position → Option Task
  | idle => none
  | failed task => some task
  | succeeded => some .emitPipelineMetadata
  | position => position.task

structure Validated where
  invalidFeatures : Nat
  invalidLabels : Nat
  reportKey : String

/-- A DAG run with the XComs of its tasks. `unmaterialized` records whether
it inserted feature rows since it last completed `update_feature_store`. -/
structure DagRun where
  position : Position := .idle
  bounds : Option WatermarkBounds := none
  extraction : Option Extraction := none
  bronzeKeys : Option (String × String) := none
  validated : Option Validated := none
  silverKeys : Option (String × String) := none
  curated : Option (Nat × Nat) := none
  gold : Option (Nat × Option String) := none
  unmaterialized : Bool := false

/-- Clearing a task and all tasks after it. -/
def DagRun.clearFrom (run : DagRun) (task : Task) : DagRun :=
  let keep {α : Type} (producer : Task) (xcom : Option α) : Option α :=
    if producer.index < task.index then xcom else none
  { position := .waiting task
    bounds := keep .determineHighWatermark run.bounds
    extraction := keep .extractNewRecords run.extraction
    bronzeKeys := keep .writeBronze run.bronzeKeys
    validated := keep .validate run.validated
    silverKeys := keep .writeSilver run.silverKeys
    curated := keep .updateCuratedTables run.curated
    gold := keep .buildTrainingDataset run.gold
    unmaterialized := run.unmaterialized }

/-- pandera's failure cases by row index, at a time. -/
structure Pandera where
  featuresSchema : Int → List FeatureRow → List Nat
  labelsSchema : Int → List LabelRow → List Nat

/-- What the DAG is deployed with: each run's `_upper_bound` and start date,
the validation library and the threshold of the gate. -/
structure Pipeline where
  upperBound : String → Int
  upperBound_after : ∀ runId, Watermarks.epoch < upperBound runId
  startDate : String → Option Int
  pandera : Pandera
  maxInvalidFraction : ℚ

namespace World

def stage (s : World) (runId : String) (change : Staging → Staging) : World :=
  { s with staging := Function.update s.staging (Keys.safeRunId runId) (change (s.staging (Keys.safeRunId runId))) }

def putBronze (s : World) (key : String) (frame : Frame) : World :=
  { s with bronze := Function.update s.bronze key (some frame) }

def putSilver (s : World) (key : String) (frame : Frame) : World :=
  { s with silver := Function.update s.silver key (some frame) }

def putReport (s : World) (key : String) (features labels : ValidationReport) : World :=
  { s with reports := Function.update s.reports key (some (features, labels)) }

/-- `update_curated_tables_and_advance_watermarks`: one transaction. -/
def commitCurated (s : World) (runId : String) (bounds : WatermarkBounds) (extraction : Extraction)
    (featuresDf : List FeatureRow) (labelsDf : List LabelRow) : World :=
  { s with
    curatedFeatures := (updateCuratedFeatures s.curatedFeatures featuresDf runId).1
    curatedLabels := (updateCuratedLabels s.curatedLabels labelsDf runId).1
    watermarks := (s.watermarks.advance featuresPipeline bounds.upperBound).advance labelsPipeline bounds.upperBound
    commits := s.commits ++ [⟨runId, bounds, extraction⟩] }

def upsertTraining (s : World) (runId : String) (df : List CuratedTrainingRecord) : World :=
  { s with
    trainingRecords := (upsertTrainingRecords s.trainingRecords df).1
    unwritten := if 0 < (upsertTrainingRecords s.trainingRecords df).2 then s.unwritten ++ [(runId, df)]
      else s.unwritten }

def putGold (s : World) (runId : String) (df : List CuratedTrainingRecord) : World :=
  { s with
    gold := s.gold.insert (Keys.goldTrainingKey runId) df
    unwritten := s.unwritten.erase (runId, df) }

/-- `_record_pipeline_run`: the columns given replace those stored, the
others stay. -/
def recordPipelineRun (s : World) (runId : String) (columns : PipelineRun → PipelineRun) (startedAt : Int) : World :=
  { s with
    pipelineRuns := Function.update s.pipelineRuns runId
      (some (columns ((s.pipelineRuns runId).getD { runId, dagId := "higgs_pipeline", status := "", startedAt }))) }

end World

namespace Pipeline

variable (pipeline : Pipeline)

def startedAt (s : World) (runId : String) : Int := (pipeline.startDate runId).getD s.clock

/-- `_on_failure`. -/
def recordFailure (s : World) (runId : String) (task : Task) (error : String) : World :=
  s.recordPipelineRun runId (fun row =>
    { row with
      status := "failed", errorMessage := some (String.ofList ((task.taskId ++ ": " ++ error).toList.take 2000))
      startedAt := pipeline.startedAt s runId, finishedAt := some s.clock }) (pipeline.startedAt s runId)

/-- The record of `emit_pipeline_metadata`. -/
def recordSuccess (s : World) (runId : String) (bounds : WatermarkBounds) (extraction : Extraction)
    (bronzeKeys silverKeys : String × String) (validated : Validated) (curated : Nat × Nat)
    (gold : Nat × Option String) : World :=
  s.recordPipelineRun runId (fun row =>
    { row with
      status := "success"
      featuresWatermarkBefore := some bounds.featuresWatermark, featuresWatermarkAfter := some bounds.upperBound
      labelsWatermarkBefore := some bounds.labelsWatermark, labelsWatermarkAfter := some bounds.upperBound
      extractedFeatures := some extraction.features.length, extractedLabels := some extraction.labels.length
      invalidFeatures := some validated.invalidFeatures, invalidLabels := some validated.invalidLabels
      curatedFeaturesUpserted := some curated.1, curatedLabelsUpserted := some curated.2
      trainingRecordsNew := some gold.1
      bronzeFeaturesKey := some bronzeKeys.1, bronzeLabelsKey := some bronzeKeys.2
      silverFeaturesKey := some silverKeys.1, silverLabelsKey := some silverKeys.2
      goldTrainingKey := gold.2, validationReportKey := some validated.reportKey
      startedAt := pipeline.startedAt s runId, finishedAt := some s.clock }) (pipeline.startedAt s runId)

def validateFeatures (now : Int) (df : List FeatureRow) : List FeatureRow × ValidationReport :=
  validate (pipeline.pandera.featuresSchema now) df

def validateLabels (now : Int) (df : List LabelRow) : List LabelRow × ValidationReport :=
  validate (pipeline.pandera.labelsSchema now) df

/-- What `validate_task` leaves behind before its gate. -/
def writeValidated (s : World) (runId : String) (featuresDf : List FeatureRow) (labelsDf : List LabelRow) : World :=
  let validated := pipeline.validateFeatures s.clock featuresDf
  let validatedLabels := pipeline.validateLabels s.clock labelsDf
  (s.stage runId fun files =>
    { files with validFeatures := some validated.1, validLabels := some validatedLabels.1 }).putReport
    (Keys.validationReportKey runId) validated.2 validatedLabels.2

/-- The validation gate lets the run go on. -/
def GatePasses (s : World) (featuresDf : List FeatureRow) (labelsDf : List LabelRow) : Prop :=
  (pipeline.validateFeatures s.clock featuresDf).2.invalidFraction ≤ pipeline.maxInvalidFraction ∧
    (pipeline.validateLabels s.clock labelsDf).2.invalidFraction ≤ pipeline.maxInvalidFraction

end Pipeline

end Amel
