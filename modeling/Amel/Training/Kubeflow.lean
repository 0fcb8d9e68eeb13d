import Mathlib.Tactic.IntervalCases
import Amel.Library.Graph
import Amel.Training.Agreement

namespace Amel.Kubeflow

open Transition
open Job (Run Starts Sequenced)
open Python (Double)
open Steps (StepJob readModel readMetrics readVersion readSizes readModelInfo readSplit)

/-- The parameters of `higgs_training_pipeline` with their defaults. `asOf`
is what the text stands for, none for the empty text. -/
structure Parameters where
  maxRows : Int := 100000
  asOf : Option Datetime := none
  featureRepoPath : String := "/app/ml/feature_repo"
  minRows : Nat := 1000
  seed : Int := 42
  validationFraction : Double := 0x3FC3333333333333
  testFraction : Double := 0x3FC3333333333333
  criterion : String := "gini"
  maxDepth : Int := 8
  minSamplesLeaf : Int := 200
  trackingUri : String := "http://mlflow:5000"
  experimentName : String := "higgs_decision_tree"
  registeredModelName : String := "higgs_decision_tree"
  candidateAlias : String := "candidate"
  gitSha : String := ""
  deriving DecidableEq, Repr

def Parameters.treeParams (p : Parameters) : TreeParams := ⟨p.criterion, some p.maxDepth, p.minSamplesLeaf, p.seed⟩

/-- The configuration with the values of the parameters. -/
def Parameters.config (p : Parameters) (settings : TrainingConfig) : TrainingConfig :=
  { settings with
    maxRows := p.maxRows
    asOf := p.asOf
    featureRepoPath := p.featureRepoPath
    randomSeed := p.seed
    validationFraction := p.validationFraction
    testFraction := p.testFraction
    criterion := p.criterion
    maxDepth := some p.maxDepth
    minSamplesLeaf := p.minSamplesLeaf
    mlflowTrackingUri := p.trackingUri
    experimentName := p.experimentName
    registeredModelName := p.registeredModelName
    candidateAlias := p.candidateAlias
    gitSha := if p.gitSha = "" then none else some p.gitSha }

/-- The arguments of `run-steps`, `run-docker` and `submit`. -/
structure Arguments where
  maxRows : Int := 100000
  asOf : Option Datetime := none
  featureRepoPath : String := "/app/ml/feature_repo"
  trackingUri : String := "http://mlflow:5000"
  maxDepth : Int := 8
  gitSha : Option String := none
  deriving DecidableEq, Repr

/-- `_params`. -/
def Arguments.params (args : Arguments) : Parameters where
  maxRows := args.maxRows
  asOf := args.asOf
  featureRepoPath := args.featureRepoPath
  trackingUri := args.trackingUri
  maxDepth := args.maxDepth
  gitSha := args.gitSha.getD ""

inductive Component
  | loadTrainingDataset
  | validateTrainingDataset
  | splitDataset
  | trainModel
  | evaluateModel
  | registerModel
  deriving DecidableEq, Repr

/-- The output artifacts of the components. -/
inductive Output
  | dataset
  | datasetVersion
  | report
  | splits
  | model
  | evaluation
  deriving DecidableEq, Repr

/-- Where the backend keeps the outputs of a run, none of them inside another. -/
structure Storage where
  path : Output → Path
  apart : ∀ {a b x y}, path a ++ x = path b ++ y → a = b

namespace Storage

variable (storage : Storage) {a b : Output} {x y : Path}

@[simp] theorem append_eq_append : storage.path a ++ x = storage.path b ++ y ↔ a = b ∧ x = y := by
  constructor
  · intro same
    cases storage.apart same
    exact ⟨rfl, List.append_cancel_left same⟩
  · rintro ⟨rfl, rfl⟩
    rfl

@[simp] theorem path_eq_append : storage.path a = storage.path b ++ y ↔ a = b ∧ [] = y := by
  rw [← List.append_nil (storage.path a), append_eq_append]

@[simp] theorem append_eq_path : storage.path a ++ x = storage.path b ↔ a = b ∧ x = [] := by
  rw [← List.append_nil (storage.path b), append_eq_append]

@[simp] theorem path_eq_path : storage.path a = storage.path b ↔ a = b := by
  rw [← List.append_nil (storage.path b), path_eq_append, and_iff_left rfl]

end Storage

/-- What a component returns. -/
inductive Returned
  | text (s : String)
  | flag (b : Bool)
  | whole (n : Int)
  | real (x : Double)
  deriving DecidableEq, Repr

/-- A run in MLflow and the model version it registered. -/
structure Registration where
  runName : Option String
  modelVersion : String
  logged : LoggedRun
  deriving DecidableEq, Repr

/-- What is recorded of a component that succeeded: what it returns, the
metadata of its output, what it registered. -/
structure Execution where
  returned : Returned
  metadata : List (String × Param) := []
  registered : Option Registration := none
  deriving DecidableEq, Repr

section Components

variable {Model : Type} (libraries : Libraries Model) (context : RunContext) (storage : Storage)

def loadTrainingDataset (fresh : Except String TrainingConfig) (order : LabelOrder) (table : List CuratedHiggsLabel)
    (maxRows : Int) (asOf : Option Datetime) (featureRepoPath : String) : StepJob Model Execution := do
  let info ← Steps.loadTrainingDataset libraries context fresh order table (storage.path .dataset)
    (storage.path .datasetVersion) maxRows asOf featureRepoPath
  return {
    returned := .text info.1.fingerprint
    metadata := [("rows", .whole info.1.nRows), ("fingerprint", .text info.1.fingerprint)] }

def validateTrainingDataset (minRows : Nat) : StepJob Model Execution := do
  let result ← Steps.validateTrainingDataset (storage.path .dataset) (storage.path .report) minRows
    Steps.defaultMaxClassImbalance
  return { returned := .flag result.valid }

def splitDataset (seed : Int) (validationFraction testFraction : Double) : StepJob Model Execution := do
  let sizes ← Steps.splitDataset libraries (storage.path .dataset) (storage.path .splits) seed validationFraction
    testFraction
  return {
    returned := .whole sizes.train
    metadata := [("train", .whole sizes.train), ("validation", .whole sizes.validation), ("test", .whole sizes.test)] }

def trainModel (treeParams : TreeParams) : StepJob Model Execution := do
  let info ← Steps.trainModel libraries context (storage.path .splits ++ ["train.parquet"])
    (storage.path .model ++ ["model.skops"]) treeParams
  return {
    returned := .real info.fitSeconds
    metadata := [("tree_depth", .whole info.treeDepth), ("n_leaves", .whole info.nLeaves)] }

/-- `metrics[name]`. -/
def metric (metrics : Metrics) (name : String) : Except String Double :=
  (metrics.lookup name).elim (.error "KeyError") Except.ok

def evaluateModel : StepJob Model Execution := do
  let metrics ← Steps.evaluateModel libraries (storage.path .model ++ ["model.skops"]) (storage.path .splits)
    (storage.path .evaluation)
  let testAccuracy ← metric metrics "test_accuracy"
  return { returned := .real testAccuracy, metadata := metrics.map fun (k, v) => (k, .real v) }

/-- The texts that Python takes for false are the empty ones. -/
def orNone (text : String) : Option String := if text = "" then none else some text

/-- What `register_model` logs. -/
def registerLog (gitSha : Option String) (treeParams : TreeParams) (version : DatasetVersion) (asOf : Datetime)
    (sizes : SplitSizes) (modelInfo : ModelInfo) (metrics : Metrics) (testAccuracy testRocAuc : String)
    (pipelineRunId : Option String) : LoggedRun :=
  let sha := gitSha.getD "unknown"
  let orchestrator := if pipelineRunId.isSome then "kfp" else "steps"
  { params := treeParams.params ++
      [("as_of", .instant asOf), ("dataset_fingerprint", .text version.fingerprint),
        ("dataset_n_rows", .whole version.nRows), ("feature_view", .text version.featureView),
        ("feature_view_version", .text version.featureViewVersion), ("n_features", .whole featureColumns.length),
        ("orchestrator", .text orchestrator)]
    tags := [("git_sha", .text sha), ("feature_view", .text version.featureView),
      ("feature_view_version", .text version.featureViewVersion), ("dataset_fingerprint", .text version.fingerprint),
      ("kfp_run_id", .text (pipelineRunId.getD "")), ("trained_at", .instant ⟨context.now, some 0⟩)]
    datasetVersion := version
    splitSizes := sizes
    treeDepth := modelInfo.treeDepth
    nLeaves := modelInfo.nLeaves
    metrics := metrics ++ [("fit_seconds", modelInfo.fitSeconds)]
    modelVersionTags := [("git_sha", sha), ("dataset_fingerprint", version.fingerprint),
      ("feature_view", version.featureView ++ ":v" ++ version.featureViewVersion), ("test_accuracy", testAccuracy),
      ("test_roc_auc", testRocAuc), ("orchestrator", orchestrator)] }

/-- The step `register_model` of a pipeline run. -/
def registerStep (modelPath metricsDir versionPath splitsDir : Path)
    (trackingUri experimentName registeredModelName candidateAlias : String) (gitSha : Option String)
    (treeParams : TreeParams) (pipelineRunId : Option String) : StepJob Model Registration := do
  let model ← readModel modelPath
  let metrics ← readMetrics (metricsDir ++ ["metrics.json"])
  let (version, asOf) ← readVersion versionPath
  let sizes ← readSizes (splitsDir ++ ["split_sizes.json"])
  let modelInfo ← readModelInfo (modelPath.withSuffix ".json")
  let train ← readSplit (splitsDir ++ ["train.parquet"])
  let sample := (train.take 5).map Prod.fst
  libraries.setExperiment trackingUri experimentName
  let signature ← libraries.predict model sample
  libraries.logModel model (sample, signature) (sample.take 3) registeredModelName
  libraries.setRegisteredModelAlias registeredModelName candidateAlias
  let testAccuracy ← metricTag metrics "test_accuracy"
  let testRocAuc ← metricTag metrics "test_roc_auc"
  return {
    runName := pipelineRunId.map ("kfp-" ++ ·)
    modelVersion := context.modelVersion
    logged := registerLog context gitSha treeParams version asOf sizes modelInfo metrics testAccuracy testRocAuc
      pipelineRunId }

def registerModel (trackingUri experimentName registeredModelName candidateAlias gitSha : String)
    (treeParams : TreeParams) (pipelineRunId : String) : StepJob Model Execution := do
  let result ← registerStep libraries context (storage.path .model ++ ["model.skops"]) (storage.path .evaluation)
    (storage.path .datasetVersion) (storage.path .splits) trackingUri experimentName registeredModelName candidateAlias
    (orNone gitSha) treeParams (orNone pipelineRunId)
  return { returned := .text result.modelVersion, registered := some result }

end Components

/-- What a component waits for: the tasks whose outputs it takes, and of
`split_dataset` the gate. -/
def needs : Component → List Component
  | .loadTrainingDataset => []
  | .validateTrainingDataset => [.loadTrainingDataset]
  | .splitDataset => [.loadTrainingDataset, .validateTrainingDataset]
  | .trainModel => [.splitDataset]
  | .evaluateModel => [.trainModel, .splitDataset]
  | .registerModel => [.trainModel, .evaluateModel, .loadTrainingDataset, .splitDataset]

variable {Model : Type}

/-- `higgs_training_pipeline`. Every task runs in a container of its own. -/
def higgsTrainingPipeline (libraries : Libraries Model) (contexts : Component → RunContext)
    (fresh : Except String TrainingConfig) (order : LabelOrder) (table : List CuratedHiggsLabel) (storage : Storage)
    (p : Parameters) (jobId : String) : Component → StepJob Model Execution
  | .loadTrainingDataset =>
    loadTrainingDataset libraries (contexts .loadTrainingDataset) storage fresh order table p.maxRows p.asOf
      p.featureRepoPath
  | .validateTrainingDataset => validateTrainingDataset storage p.minRows
  | .splitDataset => splitDataset libraries storage p.seed p.validationFraction p.testFraction
  | .trainModel => trainModel libraries (contexts .trainModel) storage p.treeParams
  | .evaluateModel => evaluateModel libraries storage
  | .registerModel =>
    registerModel libraries (contexts .registerModel) storage p.trackingUri p.experimentName p.registeredModelName
      p.candidateAlias p.gitSha p.treeParams jobId

/-- The order that the dependencies leave. -/
def taskOrder : List Component :=
  [.loadTrainingDataset, .validateTrainingDataset, .splitDataset, .trainModel, .evaluateModel, .registerModel]

theorem taskOrder_chain : taskOrder.IsChain fun a b => a ∈ needs b := by decide

theorem taskOrder_nodup : taskOrder.Nodup := by decide

theorem needs_earlier : ∀ done task rest, taskOrder = done ++ task :: rest → needs task ⊆ done := by
  intro done task rest split
  have place : done = taskOrder.take done.length := by rw [split, List.take_left]
  have next : taskOrder[done.length]? = some task := by rw [split, List.getElem?_append_right le_rfl, Nat.sub_self]; rfl
  have inside : done.length < 6 := by
    have length := congrArg List.length split
    rw [List.length_append, List.length_cons] at length
    change 6 = _ at length
    omega
  rw [place]
  generalize done.length = n at next inside
  clear split place
  interval_cases n <;> cases next <;> decide

theorem mem_taskOrder (task : Component) : task ∈ taskOrder := by
  cases task <;> decide

end Amel.Kubeflow
