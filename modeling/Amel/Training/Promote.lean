import Amel.Library.Program
import Amel.Training.Config

namespace Amel

open Python (Double)

structure PromotionCriteria where
  minTestAccuracy : Double
  minTestRocAuc : Double
  maxRegression : Double
  deriving DecidableEq, Repr

def PromotionCriteria.fromConfig (cfg : TrainingConfig) : PromotionCriteria :=
  ⟨cfg.promotionMinTestAccuracy, cfg.promotionMinTestRocAuc, cfg.promotionMaxRegression⟩

structure PromotionDecision where
  approved : Bool
  reasons : List String
  candidateMetrics : Metrics
  championMetrics : Option Metrics
  criteria : PromotionCriteria
  deriving DecidableEq, Repr

/-- One absolute floor: whether the metric clears it, and the reason. -/
def checkFloor (metric : String) (value floor : Double) : Bool × String :=
  if value.lt floor then (false, s!"{metric} {value.fixed 4} < floor {floor.repr}")
  else (true, s!"{metric} {value.fixed 4} >= floor {floor.repr}")

/-- The comparison with the champion; one without the metric counts as 0.0. -/
def checkRegression (acc : Double) (champion : Option Metrics) (maxRegression : Double) : Bool × String :=
  match champion with
  | none => (true, "no current champion — first promotion")
  | some champion =>
    let champAcc := (champion.lookup "test_accuracy").getD 0
    if acc.lt (champAcc.sub maxRegression) then
      (false, s!"test_accuracy {acc.fixed 4} regresses champion {champAcc.fixed 4} by more than {maxRegression.repr}")
    else (true, s!"test_accuracy {acc.fixed 4} vs champion {champAcc.fixed 4} within tolerance")

def evaluatePromotion (candidate : Metrics) (champion : Option Metrics) (criteria : PromotionCriteria) :
    PromotionDecision :=
  match candidate.lookup "test_accuracy", candidate.lookup "test_roc_auc" with
  | some acc, some auc =>
    let accuracy := checkFloor "test_accuracy" acc criteria.minTestAccuracy
    let rocAuc := checkFloor "test_roc_auc" auc criteria.minTestRocAuc
    let regression := checkRegression acc champion criteria.maxRegression
    ⟨accuracy.1 && rocAuc.1 && regression.1, [accuracy.2, rocAuc.2, regression.2], candidate, champion, criteria⟩
  | _, _ => ⟨false, ["candidate is missing test_accuracy/test_roc_auc"], candidate, champion, criteria⟩

/-- `ml.model_promotions`, less the two columns the database fills in. -/
structure ModelPromotion where
  modelName : String
  version : String
  runId : Option String
  fromAlias : Option String
  toAlias : String
  previousChampionVersion : Option String
  decidedBy : String
  reason : String
  criteria : PromotionCriteria
  candidateMetrics : Metrics
  championMetrics : Option Metrics
  deriving DecidableEq, Repr

/-- What an external call may raise. -/
inductive CallError
  | mlflowException
  | other
  deriving DecidableEq, Repr

/-- On whose behalf the registry is read. -/
inductive Side
  | candidate
  | champion
  deriving DecidableEq, Repr

inductive PromoteCall
  | getModelVersionByAlias (side : Side) (name : String)
  | getModelVersion (side : Side) (version : String)
  | getRun (side : Side) (runId : String)
  | setRegisteredModelAlias (name version : String)
  | setModelVersionTag (version key value : String)
  | insertPromotion (row : ModelPromotion)
  deriving DecidableEq, Repr

/-- A version, the run id of a version, the metrics of a run, or nothing. -/
def PromoteReply : PromoteCall → Type
  | .getModelVersionByAlias _ _ => Except CallError String
  | .getModelVersion _ _ => Except CallError (Option String)
  | .getRun _ _ => Except CallError Metrics
  | .setRegisteredModelAlias _ _ | .setModelVersionTag _ _ _ | .insertPromotion _ => Except CallError Unit

abbrev PromoteProgram := Program PromoteCall PromoteReply CallError

/-- An exception of a call is an exception of the caller. -/
def PromoteProgram.ofReply {α : Type} : Except CallError α → PromoteProgram α
  | .ok value => .pure value
  | .error error => .raise error

open PromoteProgram (ofReply)

def getModelVersion (side : Side) (version : String) : PromoteProgram (Option String) :=
  .call (.getModelVersion side version) ofReply

def getRun (side : Side) (runId : String) : PromoteProgram Metrics := .call (.getRun side runId) ofReply

def setRegisteredModelAlias (name version : String) : PromoteProgram Unit :=
  .call (.setRegisteredModelAlias name version) ofReply

def setModelVersionTag (version key value : String) : PromoteProgram Unit :=
  .call (.setModelVersionTag version key value) ofReply

def insertPromotion (row : ModelPromotion) : PromoteProgram Unit := .call (.insertPromotion row) ofReply

def metricsForVersion (side : Side) (version : String) : PromoteProgram (Option String × Metrics) :=
  (getModelVersion side version).bind fun
    | none => .pure (none, [])
    | some runId => (getRun side runId).bind fun metrics => .pure (some runId, metrics)

/-- The metrics of the champion; an MlflowException leaves them at `None`. -/
def championMetrics (previous : String) : PromoteProgram (Option String × Option Metrics) :=
  ((metricsForVersion .champion previous).bind fun read => .pure (some previous, some read.2)).rescue fun
    | .mlflowException => .pure (some previous, none)
    | .other => .raise .other

/-- The version and metrics of the champion. The first read is caught as the
second is: an MlflowException counts as no champion, whatever its cause. -/
def currentChampion (cfg : TrainingConfig) : PromoteProgram (Option String × Option Metrics) :=
  .call (.getModelVersionByAlias .champion cfg.championAlias) fun
    | .error .mlflowException => .pure (none, none)
    | .error .other => .raise .other
    | .ok previous => championMetrics previous

structure PromoteRequest where
  version : Option String
  decidedBy : String
  force : Bool := false
  deriving DecidableEq, Repr

/-- The version to promote: an explicit one, or the candidate's. -/
def candidateVersion (cfg : TrainingConfig) : Option String → PromoteProgram String
  | some version => .pure version
  | none => .call (.getModelVersionByAlias .candidate cfg.candidateAlias) ofReply

def promotionReason (decision : PromotionDecision) (force : Bool) : String :=
  "; ".intercalate decision.reasons ++ if force && !decision.approved then "; FORCED by operator" else ""

def tagSuperseded (version : String) : Option String → PromoteProgram Unit
  | some previous => if previous ≠ version then setModelVersionTag previous "superseded_by" version else .pure ()
  | none => .pure ()

/-- What follows the write of the alias: the tags, and then the audit row. -/
def recordPromotion (cfg : TrainingConfig) (request : PromoteRequest) (version : String) (runId : Option String)
    (previous : Option String) (decision : PromotionDecision) : PromoteProgram PromotionDecision :=
  let reason := promotionReason decision request.force
  (setModelVersionTag version "promoted_by" request.decidedBy).bind fun _ =>
  (setModelVersionTag version "promotion_reason" reason).bind fun _ =>
  (tagSuperseded version previous).bind fun _ =>
  (insertPromotion
    { modelName := cfg.registeredModelName, version, runId, fromAlias := some cfg.candidateAlias
      toAlias := cfg.championAlias, previousChampionVersion := previous, decidedBy := request.decidedBy, reason
      criteria := decision.criteria, candidateMetrics := decision.candidateMetrics
      championMetrics := decision.championMetrics }).bind fun _ =>
  .pure decision

def promote (cfg : TrainingConfig) (request : PromoteRequest) : PromoteProgram PromotionDecision :=
  (candidateVersion cfg request.version).bind fun version =>
  (metricsForVersion .candidate version).bind fun (runId, metrics) =>
  (currentChampion cfg).bind fun (previous, champMetrics) =>
  let decision := evaluatePromotion metrics champMetrics (.fromConfig cfg)
  if !decision.approved && !request.force then .pure decision
  else (setRegisteredModelAlias cfg.championAlias version).bind fun _ =>
    recordPromotion cfg request version runId previous decision

end Amel
