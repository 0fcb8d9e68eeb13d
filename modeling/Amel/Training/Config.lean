import Amel.Common.Events
import Amel.Python.Double

namespace Amel

open Python (Double)

/-- `DecisionTreeClassifier(**cfg.tree_params())`. -/
structure TreeParams where
  criterion : String
  maxDepth : Option Int
  minSamplesLeaf : Int
  randomState : Int
  deriving DecidableEq, Repr

/-- The `TRAINING_` settings of a run, with their defaults. -/
structure TrainingConfig where
  featureRepoPath : String := "/app/ml/feature_repo"
  featureView : String := "higgs_features"
  maxRows : Int := 200000
  asOf : Option Datetime := none
  randomSeed : Int := 42
  validationFraction : Double := 0x3FC3333333333333
  testFraction : Double := 0x3FC3333333333333
  criterion : String := "gini"
  maxDepth : Option Int := some 8
  minSamplesLeaf : Int := 200
  mlflowTrackingUri : String := "http://mlflow:5000"
  experimentName : String := "higgs_decision_tree"
  registeredModelName : String := "higgs_decision_tree"
  candidateAlias : String := "candidate"
  championAlias : String := "champion"
  promotionMinTestAccuracy : Double := 0x3FE51EB851EB851F
  promotionMinTestRocAuc : Double := 0x3FE6666666666666
  promotionMaxRegression : Double := 0x3F747AE147AE147B
  gitSha : Option String := none
  deriving DecidableEq, Repr

def TrainingConfig.treeParams (cfg : TrainingConfig) : TreeParams :=
  ⟨cfg.criterion, cfg.maxDepth, cfg.minSamplesLeaf, cfg.randomSeed⟩

/-- The metrics of an MLflow run, a `dict[str, float]`. -/
abbrev Metrics := List (String × Double)

end Amel
