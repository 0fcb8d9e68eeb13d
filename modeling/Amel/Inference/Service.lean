import Amel.Common.Events
import Amel.Library.Program
import Amel.Python.Double

namespace Amel

open Python (Double)

structure ModelMetadata where
  name : String
  «alias» : String
  version : String
  runId : Option String
  gitSha : Option String
  datasetFingerprint : Option String
  featureView : Option String
  testAccuracy : Option String
  loadedAt : Datetime
  deriving DecidableEq, Repr

/-- `predictProba` is column 1 of the first row of what the estimator
returns for a frame of one row, or `none` where it raises. -/
structure LoadedModel where
  predictProba : List (BitVec 32) → Option Double
  metadata : ModelMetadata

/-- A row of `ml.predictions`. -/
structure Prediction where
  predictionId : String
  entityId : Option String
  source : String
  modelName : String
  modelVersion : String
  modelRunId : Option String
  features : Features
  prediction : Int
  probability : Double
  latencyMs : Double
  traceId : String
  deriving DecidableEq, Repr

def predictionSchemaVersion : String := "1.0.0"

structure PredictionEvent where
  predictionId : String
  entityId : Option String
  source : String
  modelName : String
  modelVersion : String
  modelRunId : Option String
  prediction : Int
  probability : Double
  predictedAt : Datetime
  schemaVersion : String := predictionSchemaVersion
  traceId : String
  deriving DecidableEq, Repr

/-- The bounds that the event class declares. A NaN is beyond neither. -/
def PredictionEvent.validate (event : PredictionEvent) : Option PredictionEvent :=
  if 0 ≤ event.prediction ∧ event.prediction ≤ 1 ∧ !event.probability.lt 0 ∧ !Double.one.lt event.probability then
    some event
  else none

/-- `model` is the metadata as a dict. -/
structure PredictionResult where
  predictionId : String
  entityId : Option String
  source : String
  prediction : Int
  probability : Double
  model : ModelMetadata
  latencyMs : Double
  traceId : String
  persisted : Bool
  deriving DecidableEq, Repr

/-- `raised` is any other exception. -/
inductive ServiceError
  | modelNotLoaded
  | featuresNotFound (entityId : String)
  | noFeatureClient
  | raised
  deriving DecidableEq, Repr

/-- The steps of a request that others can come between: what it asks of the
outside, and what it does to the cached model and its lock. -/
inductive ServiceCall
  | perfCounter
  | getFeatures (entityId : String)
  | readCurrent
  | uuid4
  | insertPrediction (row : Prediction)
  | utcNow
  | publish (event : PredictionEvent)
  | acquireLock
  | load (name «alias» : String)
  | writeCurrent (loaded : LoadedModel)
  | releaseLock

def ServiceReply : ServiceCall → Type
  | .perfCounter => Double
  | .getFeatures _ => Except Unit (Option Features)
  | .readCurrent => Option LoadedModel
  | .uuid4 => String
  | .utcNow => Datetime
  | .load _ _ => Except Unit LoadedModel
  | .insertPrediction _ | .publish _ => Except Unit Unit
  | .acquireLock | .writeCurrent _ | .releaseLock => Unit

abbrev ServiceProgram := Program ServiceCall ServiceReply ServiceError

/-- An exception of a call is an exception of the caller. -/
def ServiceProgram.ofReply {α : Type} : Except Unit α → ServiceProgram α
  | .ok value => .pure value
  | .error _ => .raise .raised

namespace ServiceProgram

def perfCounter : ServiceProgram Double := .call .perfCounter .pure

def uuid4 : ServiceProgram String := .call .uuid4 .pure

def utcNow : ServiceProgram Datetime := .call .utcNow .pure

def getFeatures (entityId : String) : ServiceProgram (Option Features) := .call (.getFeatures entityId) ofReply

def insertPrediction (row : Prediction) : ServiceProgram Unit := .call (.insertPrediction row) ofReply

def publish (event : PredictionEvent) : ServiceProgram Unit := .call (.publish event) ofReply

/-- `self._current`. -/
def readCurrent : ServiceProgram (Option LoadedModel) := .call .readCurrent .pure

def writeCurrent (loaded : LoadedModel) : ServiceProgram Unit := .call (.writeCurrent loaded) .pure

def acquireLock : ServiceProgram Unit := .call .acquireLock .pure

def releaseLock : ServiceProgram Unit := .call .releaseLock .pure

/-- The loader, whose exceptions the caller catches. -/
def load (name «alias» : String) : ServiceProgram (Except Unit LoadedModel) := .call (.load name «alias») .pure

end ServiceProgram

open ServiceProgram

/-- What `PredictionService` and its `ModelCache` are built with: the model
they serve, and which of the optional parts there are. -/
structure PredictionService where
  name : String
  «alias» : String
  features : Bool
  store : Bool
  publisher : Bool

/-- The frame of one row, its columns in the order of training, as float32. -/
def frame (features : Features) : Option (List (BitVec 32)) :=
  higgsFeatureNames.mapM fun name => (features.lookup name).map Double.toSingle

def LoadedModel.proba (loaded : LoadedModel) (features : Features) : Option Double :=
  (frame features).bind loaded.predictProba

/-- `int(proba >= 0.5)`. -/
def labelOf (proba : Double) : Int := if proba.ge 0x3FE0000000000000 then 1 else 0

/-- `PredictionStore.save`: whether the transaction returned. -/
def save (row : Prediction) : ServiceProgram Bool :=
  ((insertPrediction row).bind fun _ => .pure true).rescue fun _ => .pure false

def persist (service : PredictionService) (row : Prediction) : ServiceProgram Bool :=
  if service.store then save row else .pure false

/-- An event that its class refuses raises before it is handed over. -/
def publishValid : Option PredictionEvent → ServiceProgram Unit
  | some event => publish event
  | none => .raise .raised

/-- The event is built and handed to the publisher; whatever goes wrong is
caught and counted. -/
def announce (service : PredictionService) (event : Datetime → PredictionEvent) : ServiceProgram Unit :=
  if service.publisher then
    (utcNow.bind fun now => publishValid (event now).validate).rescue fun _ => .pure ()
  else .pure ()

/-- What one prediction is made of, once all of it is known. -/
structure PredictionParts where
  loaded : LoadedModel
  features : Features
  entityId : Option String
  source : String
  traceId : String
  proba : Double
  latencyMs : Double
  predictionId : String

namespace PredictionParts

variable (parts : PredictionParts)

def row : Prediction where
  predictionId := parts.predictionId
  entityId := parts.entityId
  source := parts.source
  modelName := parts.loaded.metadata.name
  modelVersion := parts.loaded.metadata.version
  modelRunId := parts.loaded.metadata.runId
  features := parts.features
  prediction := labelOf parts.proba
  probability := parts.proba
  latencyMs := parts.latencyMs
  traceId := parts.traceId

def event (predictedAt : Datetime) : PredictionEvent where
  predictionId := parts.predictionId
  entityId := parts.entityId
  source := parts.source
  modelName := parts.loaded.metadata.name
  modelVersion := parts.loaded.metadata.version
  modelRunId := parts.loaded.metadata.runId
  prediction := labelOf parts.proba
  probability := parts.proba
  predictedAt
  traceId := parts.traceId

def result (persisted : Bool) : PredictionResult where
  predictionId := parts.predictionId
  entityId := parts.entityId
  source := parts.source
  prediction := labelOf parts.proba
  probability := parts.proba
  model := parts.loaded.metadata
  latencyMs := parts.latencyMs.round 3
  traceId := parts.traceId
  persisted

end PredictionParts

/-- The end of `_predict`: persist, publish, answer. -/
def deliver (service : PredictionService) (parts : PredictionParts) : ServiceProgram PredictionResult :=
  (persist service parts.row).bind fun persisted =>
  (announce service parts.event).bind fun _ =>
  .pure (parts.result persisted)

/-- `_predict` from the probability on. -/
def complete (service : PredictionService) (loaded : LoadedModel) (features : Features) (entityId : Option String)
    (source traceId : String) (started proba : Double) : ServiceProgram PredictionResult :=
  perfCounter.bind fun stopped =>
  uuid4.bind fun predictionId =>
  deliver service { loaded, features, entityId, source, traceId, proba, predictionId
                    latencyMs := (stopped.sub started).mul 0x408F400000000000 }

/-- `_predict` with the cached model. -/
def predictLoaded (service : PredictionService) (loaded : LoadedModel) (features : Features) (entityId : Option String)
    (source traceId : String) (started : Double) : ServiceProgram PredictionResult :=
  match loaded.proba features with
  | none => .raise .raised
  | some proba => complete service loaded features entityId source traceId started proba

/-- `PredictionService._predict`. The cached model is read once. -/
def predict (service : PredictionService) (features : Features) (entityId : Option String) (source traceId : String)
    (started : Double) : ServiceProgram PredictionResult :=
  readCurrent.bind fun
    | none => .raise .modelNotLoaded
    | some loaded => predictLoaded service loaded features entityId source traceId started

def predictRaw (service : PredictionService) (features : Features) (entityId : Option String) (traceId : String) :
    ServiceProgram PredictionResult :=
  perfCounter.bind fun started =>
  predict service features entityId "raw" traceId started

def predictEntity (service : PredictionService) (entityId traceId : String) : ServiceProgram PredictionResult :=
  perfCounter.bind fun started =>
  if service.features then
    (getFeatures entityId).bind fun
      | none => .raise (.featuresNotFound entityId)
      | some features => predict service features (some entityId) "entity" traceId started
  else .raise .noFeatureClient

/-- `ModelCache.refresh`: the versions before and after. -/
def refresh (service : PredictionService) : ServiceProgram (Option String × Option String) :=
  acquireLock.bind fun _ =>
  readCurrent.bind fun current =>
  let previous := current.map (·.metadata.version)
  (load service.name service.alias).bind fun
    | .error _ => releaseLock.bind fun _ => .pure (previous, previous)
    | .ok loaded =>
      readCurrent.bind fun current =>
      if current.isSome && some loaded.metadata.version = previous then
        releaseLock.bind fun _ => .pure (previous, previous)
      else
        (writeCurrent loaded).bind fun _ =>
        releaseLock.bind fun _ => .pure (previous, some loaded.metadata.version)

end Amel
