import Amel.Training.Dataset

namespace Amel

open Python (Double)

structure Confusion where
  tn : Nat
  fp : Nat
  fn : Nat
  tp : Nat
  deriving DecidableEq, Repr

/-- What training calls of Feast, pandas, scikit-learn and MLflow. Of MLflow
these are the calls that may fail: what a run logs it takes. -/
structure Libraries (Model : Type) where
  featureStore : String → Except String FeatureStore
  rowHashes : List EntityRow → String
  trainTestSplit : TrainTestSplit
  fit : TreeParams → List FeatureVector → List Int → Except String Model
  getDepth : Model → Int
  getNLeaves : Model → Int
  predict : Model → List FeatureVector → Except String (List Int)
  /-- The columns of the result, one for each class. -/
  predictProba : Model → List FeatureVector → Except String (List (List Double))
  accuracyScore : List Int → List Int → Except String Double
  precisionScore : List Int → List Int → Except String Double
  recallScore : List Int → List Int → Except String Double
  f1Score : List Int → List Int → Except String Double
  rocAucScore : List Int → List Double → Except String Double
  logLoss : List Int → List Double → Except String Double
  confusionMatrix : List Int → List Int → Except String Confusion
  setExperiment : (trackingUri experimentName : String) → Except String Unit
  logModel : Model → (signature : List FeatureVector × List Int) → (inputExample : List FeatureVector) →
    (registeredModelName : String) → Except String Unit
  setRegisteredModelAlias : (registeredModelName candidateAlias : String) → Except String Unit

/-- What a run has of its own: the ids MLflow gives it, its times, what `git`
answers. -/
structure RunContext where
  runId : String
  modelVersion : String
  head : Option String
  now : Int
  fitSeconds : Double
  durationSeconds : Double
  sklearnVersion : String
  pythonVersion : String

/-- `git_sha`. -/
def RunContext.gitSha (context : RunContext) (explicit : Option String) : Option String :=
  if explicit.any (· ≠ "") then explicit else context.head

/-- A value of a logged parameter or tag. -/
inductive Param
  | text (s : String)
  | whole (n : Int)
  | real (x : Double)
  | instant (t : Datetime)
  | missing
  deriving DecidableEq, Repr

def TreeParams.params (tree : TreeParams) : List (String × Param) :=
  [("criterion", .text tree.criterion), ("max_depth", tree.maxDepth.elim .missing .whole),
    ("min_samples_leaf", .whole tree.minSamplesLeaf), ("random_state", .whole tree.randomState)]

/-- What stands in MLflow for a run and for the model version it registered. -/
structure LoggedRun where
  params : List (String × Param)
  tags : List (String × Param)
  datasetVersion : DatasetVersion
  splitSizes : SplitSizes
  treeDepth : Int
  nLeaves : Int
  metrics : Metrics
  modelVersionTags : List (String × String)
  deriving DecidableEq, Repr

variable {Model : Type} (libraries : Libraries Model)

def computeMetrics (yTrue yPred : List Int) (yProba : List Double) : Except String Metrics := do
  let accuracy ← libraries.accuracyScore yTrue yPred
  let precision ← libraries.precisionScore yTrue yPred
  let recallScore ← libraries.recallScore yTrue yPred
  let f1 ← libraries.f1Score yTrue yPred
  let rocAuc ← libraries.rocAucScore yTrue yProba
  let logLoss ← libraries.logLoss yTrue yProba
  return [("accuracy", accuracy), ("precision", precision), ("recall", recallScore), ("f1", f1), ("roc_auc", rocAuc),
    ("log_loss", logLoss)]

/-- The body of the loop over `validation` and `test`. -/
def evaluatePart (model : Model) (name : String) (x : List FeatureVector) (y : List Int) :
    Except String (Metrics × Confusion) := do
  let pred ← libraries.predict model x
  let classes ← libraries.predictProba model x
  let proba ← classes[1]?.elim (.error "IndexError") Except.ok
  let metrics ← computeMetrics libraries y pred proba
  let cm ← libraries.confusionMatrix y pred
  return (metrics.map fun (k, v) => (name ++ "_" ++ k, v), cm)

/-- A metric of the test split as it stands in a tag. -/
def metricTag (metrics : Metrics) (name : String) : Except String String :=
  (metrics.lookup name).elim (.error "KeyError") fun value => .ok (value.fixed 4)

structure TrainingResult where
  runId : String
  modelVersion : String
  metrics : Metrics
  datasetFingerprint : String
  durationSeconds : Double
  deriving DecidableEq, Repr

/-- The result of a run beside its splits and what it logged. -/
structure TrainingOutcome where
  result : TrainingResult
  splits : Splits
  logged : LoggedRun

/-- What `run_training` logs. -/
def scriptLog (context : RunContext) (cfg : TrainingConfig) (fvVersion : String) (version : DatasetVersion)
    (splits : Splits) (model : Model) (allMetrics : Metrics) (testAccuracy testRocAuc : String) : LoggedRun :=
  let sha := (context.gitSha cfg.gitSha).getD "unknown"
  { params := cfg.treeParams.params ++
      [("random_seed", .whole cfg.randomSeed), ("validation_fraction", .real cfg.validationFraction),
        ("test_fraction", .real cfg.testFraction), ("max_rows", .whole cfg.maxRows),
        ("as_of", .instant (cfg.asOf.getD ⟨context.now, some 0⟩)), ("feature_view", .text cfg.featureView),
        ("feature_view_version", .text fvVersion), ("n_features", .whole featureColumns.length),
        ("dataset_fingerprint", .text version.fingerprint), ("dataset_n_rows", .whole version.nRows),
        ("sklearn_version", .text context.sklearnVersion), ("python_version", .text context.pythonVersion)]
    tags := [("git_sha", .text sha), ("feature_view", .text cfg.featureView),
      ("feature_view_version", .text fvVersion), ("dataset_fingerprint", .text version.fingerprint),
      ("trained_at", .instant ⟨context.now, some 0⟩)]
    datasetVersion := version
    splitSizes := splits.sizes
    treeDepth := libraries.getDepth model
    nLeaves := libraries.getNLeaves model
    metrics := allMetrics ++ [("training_duration_seconds", context.durationSeconds)]
    modelVersionTags := [("git_sha", sha), ("dataset_fingerprint", version.fingerprint),
      ("feature_view", cfg.featureView ++ ":v" ++ fvVersion), ("test_accuracy", testAccuracy),
      ("test_roc_auc", testRocAuc)] }

def runTraining (context : RunContext) (order : LabelOrder) (table : List CuratedHiggsLabel) (cfg : TrainingConfig) :
    Except String TrainingOutcome := do
  libraries.setExperiment cfg.mlflowTrackingUri cfg.experimentName
  let store ← libraries.featureStore cfg.featureRepoPath
  let fvVersion ← featureViewVersion store cfg.featureView
  let df ← loadTrainingFrame order table cfg store
  let version := datasetVersion libraries.rowHashes df cfg.featureView fvVersion
  let splits ← splitFrame libraries.trainTestSplit df cfg.randomSeed cfg.validationFraction cfg.testFraction
  let model ← libraries.fit cfg.treeParams splits.train.x splits.train.y
  let (validation, _) ← evaluatePart libraries model "validation" splits.validation.x splits.validation.y
  let (test, _) ← evaluatePart libraries model "test" splits.test.x splits.test.y
  let allMetrics := validation ++ test ++ [("fit_seconds", context.fitSeconds)]
  let signature ← libraries.predict model (splits.train.x.take 5)
  libraries.logModel model (splits.train.x.take 5, signature) (splits.train.x.take 3) cfg.registeredModelName
  libraries.setRegisteredModelAlias cfg.registeredModelName cfg.candidateAlias
  let testAccuracy ← metricTag allMetrics "test_accuracy"
  let testRocAuc ← metricTag allMetrics "test_roc_auc"
  return {
    result := ⟨context.runId, context.modelVersion, allMetrics, version.fingerprint, context.durationSeconds⟩
    splits
    logged := scriptLog libraries context cfg fvVersion version splits model allMetrics testAccuracy testRocAuc }

end Amel
