import Amel.Library.Job
import Amel.Training.Run

namespace Amel

open Python (Double)

/-- The parts of a path. -/
abbrev Path := List String

/-- `path.with_suffix(suffix)`. -/
def Path.withSuffix (path : Path) (suffix : String) : Path :=
  let name := (path.getLastD "").toList.reverse
  let stem := (name.dropWhile (· ≠ '.')).drop 1
  path.dropLast ++ [String.ofList (if stem = [] ∨ name.head? = some '.' then name.reverse else stem.reverse) ++ suffix]

structure DatasetReport where
  rows : Nat
  columns : Nat
  positiveFraction : Double
  problems : List String
  valid : Bool
  deriving DecidableEq, Repr

structure ModelInfo where
  fitSeconds : Double
  treeDepth : Int
  nLeaves : Int
  params : TreeParams
  deriving DecidableEq, Repr

/-- What the steps hand over. Reading a file gives what was written to it. -/
inductive Artifact (Model : Type)
  | dataset (df : TrainingFrame)
  | version (version : DatasetVersion) (asOf : Datetime)
  | report (report : DatasetReport)
  | split (rows : List (FeatureVector × Int))
  | sizes (sizes : SplitSizes)
  | model (model : Model)
  | modelInfo (info : ModelInfo)
  | confusion (cm : Confusion)
  | metrics (metrics : Metrics)

namespace Artifact

variable {Model : Type}

def dataset? : Artifact Model → Option TrainingFrame
  | dataset df => some df
  | _ => none

def version? : Artifact Model → Option (DatasetVersion × Datetime)
  | version info asOf => some (info, asOf)
  | _ => none

def split? : Artifact Model → Option (List (FeatureVector × Int))
  | split rows => some rows
  | _ => none

def sizes? : Artifact Model → Option SplitSizes
  | sizes found => some found
  | _ => none

def model? : Artifact Model → Option Model
  | model found => some found
  | _ => none

def modelInfo? : Artifact Model → Option ModelInfo
  | modelInfo found => some found
  | _ => none

def metrics? : Artifact Model → Option Metrics
  | metrics found => some found
  | _ => none

end Artifact

/-- A list of texts without quotes, as Python shows it. -/
def shown (items : List String) : String := "[" ++ ", ".intercalate items ++ "]"

def quoted (name : String) : String := "'" ++ name ++ "'"

/-- `max(share, 1 - share)`. -/
def majorityShare (share : Double) : Double := if share.lt (.sub .one share) then .sub .one share else share

namespace TrainingFrame

variable (df : TrainingFrame)

def rowProblems (minRows : Nat) : List String :=
  if df.rows.length < minRows then ["only " ++ toString df.rows.length ++ " rows (< " ++ toString minRows ++ ")"] else []

def columnProblems : List String :=
  if df.missing featureColumns ≠ [] then ["missing feature columns: " ++ shown ((df.missing featureColumns).map quoted)]
  else
    let nanCols := featureColumns.filter fun name => df.rows.any fun row => (row.value name).isNaN
    if nanCols ≠ [] then ["NaNs in " ++ shown (nanCols.map quoted)] else []

def targetProblems (maxClassImbalance : Double) : List String :=
  let labels := (df.rows.map (·.target)).dedup
  let share := majorityShare df.meanTarget
  if ¬∀ label ∈ labels, label = 0 ∨ label = 1 then
    ["target values " ++ shown ((labels.insertionSort (· ≤ ·)).map toString) ++ " not in \x7b0, 1\x7d"]
  else if df.rows ≠ [] ∧ maxClassImbalance.lt share then
    ["class imbalance " ++ share.fixed 3 ++ " > " ++ maxClassImbalance.repr]
  else []

def problems (minRows : Nat) (maxClassImbalance : Double) : List String :=
  df.rowProblems minRows ++ df.columnProblems ++ df.targetProblems maxClassImbalance

variable {df} {order : LabelOrder} {table : List CuratedHiggsLabel} {cfg : TrainingConfig} {store : FeatureStore}

/-- A loaded frame has its feature columns, without NaNs. -/
theorem columnProblems_of_loaded (loads : loadTrainingFrame order table cfg store = .ok df) : df.columnProblems = [] := by
  simp only [loadTrainingFrame, Except.bind_eq_ok, dropna] at loads
  obtain ⟨entityDf, -, joined, -, matched, dropped, loaded⟩ := loads
  cases loaded
  split at dropped
  · rename_i complete
    cases dropped
    have nothing_missing : missing (int8Target ⟨joined.columns, joined.rows.filter fun row =>
        featureColumns.all fun name => !(row.value name).isNaN, fun row member =>
          joined.aligned row (List.mem_of_mem_filter member)⟩) featureColumns = [] := complete
    rw [columnProblems, if_neg (not_not.mpr nothing_missing), if_neg (not_not.mpr (List.filter_eq_nil_iff.mpr ?_))]
    intro name inColumns found
    obtain ⟨row, member, isNaN⟩ := List.any_eq_true.mp found
    obtain ⟨before, kept, rfl⟩ := List.mem_map.mp member
    have clean := List.all_eq_true.mp (List.mem_filter.mp kept).2 name inColumns
    have same : TrainingRow.value { before with target := before.target.bmod 256 } name = before.value name := rfl
    rw [same] at isNaN
    simp [isNaN] at clean
  · cases dropped

/-- What the gate asks of a loaded frame. -/
theorem problems_of_loaded (loads : loadTrainingFrame order table cfg store = .ok df)
    {minRows : Nat} {maxClassImbalance : Double} : df.problems minRows maxClassImbalance = [] ↔
      minRows ≤ df.rows.length ∧ (∀ row ∈ df.rows, row.target = 0 ∨ row.target = 1) ∧
        (df.rows ≠ [] → ¬maxClassImbalance.lt (majorityShare df.meanTarget)) := by
  have rows : df.rowProblems minRows = [] ↔ minRows ≤ df.rows.length := by
    unfold rowProblems
    split <;> simp <;> omega
  have targets : df.targetProblems maxClassImbalance = [] ↔ (∀ row ∈ df.rows, row.target = 0 ∨ row.target = 1) ∧
      (df.rows ≠ [] → ¬maxClassImbalance.lt (majorityShare df.meanTarget)) := by
    unfold targetProblems
    simp only [List.mem_dedup, List.forall_mem_map]
    split
    · rename_i other
      simp [other]
    · rename_i binary
      simp only [not_not] at binary
      split
      · rename_i imbalanced
        simp [imbalanced]
      · rename_i balanced
        exact iff_of_true rfl ⟨binary, fun nonempty above => balanced ⟨nonempty, above⟩⟩
  rw [problems, columnProblems_of_loaded loads, List.append_nil, List.append_eq_nil_iff, rows, targets]

end TrainingFrame

namespace Steps

variable {Model : Type} (libraries : Libraries Model) (context : RunContext)

abbrev StepJob (Model : Type) := Job Path (Artifact Model) String

def readDataset (path : Path) : StepJob Model TrainingFrame := Job.read Artifact.dataset? "FileNotFoundError" path

def readVersion (path : Path) : StepJob Model (DatasetVersion × Datetime) :=
  Job.read Artifact.version? "FileNotFoundError" path

def readSplit (path : Path) : StepJob Model (List (FeatureVector × Int)) :=
  Job.read Artifact.split? "FileNotFoundError" path

def readSizes (path : Path) : StepJob Model SplitSizes := Job.read Artifact.sizes? "FileNotFoundError" path

def readModel (path : Path) : StepJob Model Model := Job.read Artifact.model? "FileNotFoundError" path

def readModelInfo (path : Path) : StepJob Model ModelInfo := Job.read Artifact.modelInfo? "FileNotFoundError" path

def readMetrics (path : Path) : StepJob Model Metrics := Job.read Artifact.metrics? "FileNotFoundError" path

/-- `fresh` is what the `TRAINING_` variables and the defaults give: only
the three arguments come from the caller's configuration. -/
def loadTrainingDataset (fresh : Except String TrainingConfig) (order : LabelOrder) (table : List CuratedHiggsLabel)
    (datasetPath versionPath : Path) (maxRows : Int) (asOf : Option Datetime) (featureRepoPath : String) :
    StepJob Model (DatasetVersion × Datetime) := do
  let settings ← fresh
  let cfg := { settings with maxRows, asOf, featureRepoPath }
  let store ← libraries.featureStore cfg.featureRepoPath
  let fvVersion ← featureViewVersion store cfg.featureView
  let df ← loadTrainingFrame order table cfg store
  let version := datasetVersion libraries.rowHashes df cfg.featureView fvVersion
  Job.write datasetPath (.dataset df)
  let logged := cfg.asOf.getD ⟨context.now, some 0⟩
  Job.write versionPath (.version version logged)
  return (version, logged)

/-- The defaults of `validate_training_dataset`. -/
def defaultMinRows : Nat := 1000

def defaultMaxClassImbalance : Double := 0x3FECCCCCCCCCCCCD

def validateTrainingDataset (datasetPath reportPath : Path) (minRows : Nat) (maxClassImbalance : Double) :
    StepJob Model DatasetReport := do
  let df ← readDataset datasetPath
  let problems := df.problems minRows maxClassImbalance
  let report : DatasetReport :=
    ⟨df.rows.length, df.columns.length + 3, df.meanTarget, problems, problems.isEmpty⟩
  Job.write reportPath (.report report)
  if problems ≠ [] then
    throw ("training dataset failed validation: " ++ "; ".intercalate problems)
  return report

/-- `X.assign(target=y.to_numpy())`. -/
def withTarget (sample : Sample) : List (FeatureVector × Int) := sample.x.zip sample.y

def splitDataset (datasetPath outDir : Path) (seed : Int) (validationFraction testFraction : Double) :
    StepJob Model SplitSizes := do
  let df ← readDataset datasetPath
  let splits ← splitFrame libraries.trainTestSplit df seed validationFraction testFraction
  Job.write (outDir ++ ["train.parquet"]) (.split (withTarget splits.train))
  Job.write (outDir ++ ["validation.parquet"]) (.split (withTarget splits.validation))
  Job.write (outDir ++ ["test.parquet"]) (.split (withTarget splits.test))
  Job.write (outDir ++ ["split_sizes.json"]) (.sizes splits.sizes)
  return splits.sizes

def trainModel (trainPath modelPath : Path) (treeParams : TreeParams) : StepJob Model ModelInfo := do
  let df ← readSplit trainPath
  let model ← libraries.fit treeParams (df.map Prod.fst) (df.map Prod.snd)
  Job.write modelPath (.model model)
  let info : ModelInfo :=
    ⟨context.fitSeconds, libraries.getDepth model, libraries.getNLeaves model, treeParams⟩
  Job.write (modelPath.withSuffix ".json") (.modelInfo info)
  return info

def evaluateModel (modelPath splitsDir outDir : Path) : StepJob Model Metrics := do
  let model ← readModel modelPath
  let validationDf ← readSplit (splitsDir ++ ["validation.parquet"])
  let (validation, validationCm) ←
    evaluatePart libraries model "validation" (validationDf.map Prod.fst) (validationDf.map Prod.snd)
  Job.write (outDir ++ ["confusion_matrix_validation.json"]) (.confusion validationCm)
  let testDf ← readSplit (splitsDir ++ ["test.parquet"])
  let (test, testCm) ← evaluatePart libraries model "test" (testDf.map Prod.fst) (testDf.map Prod.snd)
  Job.write (outDir ++ ["confusion_matrix_test.json"]) (.confusion testCm)
  let metrics := validation ++ test
  Job.write (outDir ++ ["metrics.json"]) (.metrics metrics)
  return metrics

/-- What `register_model` logs without a `pipeline_run_id`. -/
def stepsLog (gitSha : Option String) (treeParams : TreeParams) (version : DatasetVersion) (asOf : Datetime)
    (sizes : SplitSizes) (modelInfo : ModelInfo) (metrics : Metrics) (testAccuracy testRocAuc : String) : LoggedRun :=
  let sha := gitSha.getD "unknown"
  { params := treeParams.params ++
      [("as_of", .instant asOf), ("dataset_fingerprint", .text version.fingerprint),
        ("dataset_n_rows", .whole version.nRows), ("feature_view", .text version.featureView),
        ("feature_view_version", .text version.featureViewVersion), ("n_features", .whole featureColumns.length),
        ("orchestrator", .text "steps")]
    tags := [("git_sha", .text sha), ("feature_view", .text version.featureView),
      ("feature_view_version", .text version.featureViewVersion), ("dataset_fingerprint", .text version.fingerprint),
      ("kfp_run_id", .text ""), ("trained_at", .instant ⟨context.now, some 0⟩)]
    datasetVersion := version
    splitSizes := sizes
    treeDepth := modelInfo.treeDepth
    nLeaves := modelInfo.nLeaves
    metrics := metrics ++ [("fit_seconds", modelInfo.fitSeconds)]
    modelVersionTags := [("git_sha", sha), ("dataset_fingerprint", version.fingerprint),
      ("feature_view", version.featureView ++ ":v" ++ version.featureViewVersion), ("test_accuracy", testAccuracy),
      ("test_roc_auc", testRocAuc), ("orchestrator", "steps")] }

def registerModel (modelPath metricsDir versionPath splitsDir : Path)
    (trackingUri experimentName registeredModelName candidateAlias : String) (gitSha : Option String)
    (treeParams : TreeParams) : StepJob Model LoggedRun := do
  let model ← readModel modelPath
  let metrics ← readMetrics (metricsDir ++ ["metrics.json"])
  let (version, asOf) ← readVersion versionPath
  let sizes ← readSizes (splitsDir ++ ["split_sizes.json"])
  let modelInfo ← readModelInfo (modelPath.withSuffix ".json")
  let train ← readSplit (splitsDir ++ ["train.parquet"])
  let sample := (train.take 5).map Prod.fst
  libraries.setExperiment trackingUri experimentName
  let signature ← libraries.predict model sample
  libraries.logModel model (sample, signature) (sample.take 3) registeredModelName
  libraries.setRegisteredModelAlias registeredModelName candidateAlias
  let testAccuracy ← metricTag metrics "test_accuracy"
  let testRocAuc ← metricTag metrics "test_roc_auc"
  return stepsLog context gitSha treeParams version asOf sizes modelInfo metrics testAccuracy testRocAuc

/-- What `run_all` returns, beside what its run logged. -/
structure Outcome where
  datasetFingerprint : String
  metrics : Metrics
  runId : String
  modelVersion : String
  logged : LoggedRun

def runAll (fresh : Except String TrainingConfig) (order : LabelOrder) (table : List CuratedHiggsLabel)
    (cfg : TrainingConfig) (workdir : Path) : StepJob Model Outcome := do
  let (version, _) ← loadTrainingDataset libraries context fresh order table (workdir ++ ["dataset.parquet"])
    (workdir ++ ["dataset_version.json"]) cfg.maxRows cfg.asOf cfg.featureRepoPath
  let _ ← validateTrainingDataset (workdir ++ ["dataset.parquet"]) (workdir ++ ["validation.json"]) defaultMinRows
    defaultMaxClassImbalance
  let _ ← splitDataset libraries (workdir ++ ["dataset.parquet"]) (workdir ++ ["splits"]) cfg.randomSeed
    cfg.validationFraction cfg.testFraction
  let _ ← trainModel libraries context (workdir ++ ["splits", "train.parquet"]) (workdir ++ ["model.skops"])
    cfg.treeParams
  let metrics ← evaluateModel libraries (workdir ++ ["model.skops"]) (workdir ++ ["splits"])
    (workdir ++ ["evaluation"])
  let logged ← registerModel libraries context (workdir ++ ["model.skops"]) (workdir ++ ["evaluation"])
    (workdir ++ ["dataset_version.json"]) (workdir ++ ["splits"]) cfg.mlflowTrackingUri cfg.experimentName
    cfg.registeredModelName cfg.candidateAlias (context.gitSha cfg.gitSha) cfg.treeParams
  return ⟨version.fingerprint, metrics, context.runId, context.modelVersion, logged⟩

end Steps

end Amel
