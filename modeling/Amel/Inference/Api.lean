import Amel.Inference.OnlineFeatures
import Amel.Inference.Refresh
import Amel.Library.Embedding

namespace Amel

open Python (Double)

/-- The settings that the application itself reads. -/
structure ApiSettings where
  modelRefreshSeconds : Int := 0
  adminToken : String := "dev-admin-token"

/-- The steps of the application beside those of a prediction. -/
inductive ApiCall
  | currentTraceIds
  | uuidHex
  | wait
  | load (name «alias» : String)
  | readLastError
  | writeLastError (error : Option String)
  | writeLastErrorAt (caught : Double)
  | readRefreshCount
  | writeRefreshCount (count : Nat)
  | health
  | ping
  | readStoreError
  | monotonic
  | readDeliveryError
  | readDeliveryErrorAt
  | readDeliveryOkAt
  | writeDeliveryError (error : String)
  | writeDeliveryErrorAt (failed : Double)
  | writeDeliveryOkAt (delivered : Double)
  | strException

/-- `load` replies with its exception as the caller notes it; `wait` replies
whether the application stops. -/
def ApiReply : ApiCall → Type
  | .currentTraceIds | .readLastError | .readStoreError | .readDeliveryError => Option String
  | .uuidHex | .strException => String
  | .wait | .health | .ping => Bool
  | .load _ _ => LoaderOutcome
  | .readRefreshCount => Nat
  | .monotonic => Double
  | .readDeliveryErrorAt | .readDeliveryOkAt => Option Double
  | .writeLastError _ | .writeLastErrorAt _ | .writeRefreshCount _ | .writeDeliveryError _ | .writeDeliveryErrorAt _
  | .writeDeliveryOkAt _ => Unit

abbrev ServerCall := ServiceCall ⊕ ApiCall

abbrev ServerReply : ServerCall → Type := Sum.elim ServiceReply ApiReply

abbrev ApiProgram := Program ServerCall ServerReply ServiceError

/-- One of the application's own steps. -/
def ApiCall.run (request : ApiCall) : ApiProgram (ApiReply request) := .call (.inr request) .pure

open ServiceProgram in
/-- `ModelCache.current`. -/
def currentModel : ApiProgram (Option LoadedModel) := readCurrent.inl

/-- `x or ...` of an optional string. -/
def truthy (s : Option String) : Option String := s.filter fun text => text != ""

/-- An optional string in an f-string. -/
def formatted (s : Option String) : String := s.getD "None"

/-- The id that is known already, or a fresh one. -/
def knownOrFresh : Option String → ApiProgram String
  | some tid => .pure tid
  | none => ApiCall.uuidHex.run

/-- `trace_id`. -/
def traceId (xTraceId : Option String) : ApiProgram String :=
  ApiCall.currentTraceIds.run.bind fun (otelTraceId : Option String) =>
  knownOrFresh ((truthy otelTraceId).or (truthy xTraceId))

open ServiceProgram in
/-- `ModelCache.refresh` with all it writes. It lets go of the lock on every
way out. -/
def refreshCache (service : PredictionService) : ApiProgram (Option String × Option String) :=
  acquireLock.inl.bind fun _ =>
  currentModel.bind fun current =>
  (ApiCall.load service.name service.alias).run.bind (loaded (current.map (·.metadata.version)))
where
  /-- The rest, by what the loader came to. -/
  loaded (previous : Option String) : LoaderOutcome → ApiProgram (Option String × Option String)
    | .raised error caught =>
      (ApiCall.writeLastError (some error)).run.bind fun _ =>
      (ApiCall.writeLastErrorAt caught).run.bind fun _ =>
      releaseLock.inl.bind fun _ => .pure (previous, previous)
    | .loaded loaded =>
      currentModel.bind fun current =>
      if current.isSome && some loaded.metadata.version = previous then
        (ApiCall.writeLastError none).run.bind fun _ =>
        releaseLock.inl.bind fun _ => .pure (previous, previous)
      else
        (writeCurrent loaded).inl.bind fun _ =>
        (ApiCall.writeLastError none).run.bind fun _ =>
        ApiCall.readRefreshCount.run.bind fun (count : Nat) =>
        (ApiCall.writeRefreshCount (count + 1)).run.bind fun _ =>
        releaseLock.inl.bind fun _ => .pure (previous, some loaded.metadata.version)

/-- `degraded` of the publisher with its default window of 30 seconds. -/
def degraded : ApiProgram (Option String) :=
  ApiCall.readDeliveryErrorAt.run.bind fun
    | none => .pure none
    | some errAt =>
      (recovered errAt).bind fun recovered =>
      if recovered then .pure none
      else
        ApiCall.monotonic.run.bind fun (now : Double) =>
        if (0x403E000000000000 : Double).lt (now.sub errAt) then .pure none
        else
          ApiCall.readDeliveryError.run.bind fun (error : Option String) =>
          .pure (some ("kafka delivery failing: " ++ formatted error))
where
  /-- The time of the last delivery is read twice, and `None` compares with nothing. -/
  recovered (errAt : Double) : ApiProgram Bool :=
    ApiCall.readDeliveryOkAt.run.bind fun
      | none => .pure false
      | some _ =>
        ApiCall.readDeliveryOkAt.run.bind fun
          | none => .raise .raised
          | some okAt => .pure (errAt.lt okAt)

/-- `_on_delivery`, as the poll thread calls it. -/
def onDelivery : Option String → ApiProgram Unit
  | none =>
    ApiCall.monotonic.run.bind fun (now : Double) =>
    (ApiCall.writeDeliveryOkAt now).run
  | some err =>
    (ApiCall.writeDeliveryError err).run.bind fun _ =>
    ApiCall.monotonic.run.bind fun (now : Double) =>
    (ApiCall.writeDeliveryErrorAt now).run

/-- `Probes.readiness` from the publisher on. -/
def publisherReady (service : PredictionService) : ApiProgram (Bool × String) :=
  if service.publisher then
    degraded.bind fun degraded =>
    match truthy degraded with
    | some reason => .pure (false, reason)
    | none => .pure (true, "ready")
  else .pure (true, "ready")

/-- `Probes.readiness` from the store on. -/
def storeReady (service : PredictionService) : ApiProgram (Bool × String) :=
  if service.store then
    ApiCall.ping.run.bind fun (answers : Bool) =>
    if answers then publisherReady service
    else
      ApiCall.readStoreError.run.bind fun (error : Option String) =>
      .pure (false, "database unreachable: " ++ formatted error)
  else publisherReady service

/-- `Probes.readiness` from the features on. -/
def featuresReady (service : PredictionService) : ApiProgram (Bool × String) :=
  if service.features then
    ApiCall.health.run.bind fun (healthy : Bool) =>
    if healthy then storeReady service else .pure (false, "feast-server unreachable")
  else storeReady service

/-- `Probes.readiness`. -/
def readiness (service : PredictionService) : ApiProgram (Bool × String) :=
  currentModel.bind fun
    | none =>
      ApiCall.readLastError.run.bind fun (error : Option String) =>
      .pure (false, "no model loaded: " ++ (truthy error).getD "initial load pending")
    | some _ => featuresReady service

/-- `invalid` is the body of a request that its class refuses, which the
framework writes. -/
inductive ApiBody
  | text (content : String)
  | detail (content : String)
  | invalid
  | model (loaded : Bool) (model : Option ModelMetadata) («alias» refreshPolicy : String) (refreshCount : Nat)
      (lastError : Option String)
  | refreshed (previousVersion currentVersion : Option String) (swapped : Bool) (error : Option String)
  | prediction (result : PredictionResult)
  deriving DecidableEq, Repr

structure ApiResponse where
  status : Nat
  xTraceId : Option String := none
  body : ApiBody
  deriving DecidableEq, Repr

/-- What a thread of the process is to do. The refresh loop is followed for
any number of rounds. -/
inductive ApiTask
  | loadInitial
  | refreshLoop (rounds : Nat)
  | delivered (err : Option String)
  | health
  | ready
  | model
  | refresh (xAdminToken : Option String)
  | predictRaw (features : Features) (entityId xTraceId : Option String)
  | predictEntity (entityId : String) (xTraceId : Option String)

/-- An exception that leaves an endpoint is answered by the framework. -/
inductive ApiResult
  | done
  | response (response : ApiResponse)
  deriving DecidableEq, Repr

namespace ApiTask

def readyEndpoint (service : PredictionService) : ApiProgram ApiResult :=
  (readiness service).bind fun (ok, reason) =>
  .pure (.response { status := if ok then 200 else 503, body := .text reason })

/-- `cache.current.metadata.as_dict() if cache.current else None`. -/
def currentMetadata : ApiProgram (Option ModelMetadata) :=
  currentModel.bind fun
    | none => .pure none
    | some _ =>
      currentModel.bind fun
        | none => .raise .raised
        | some served => .pure (some served.metadata)

def modelEndpoint (service : PredictionService) (settings : ApiSettings) : ApiProgram ApiResult :=
  currentModel.bind fun loaded =>
  currentMetadata.bind fun model =>
  ApiCall.readRefreshCount.run.bind fun (count : Nat) =>
  ApiCall.readLastError.run.bind fun (error : Option String) =>
  let refreshPolicy := if 0 < settings.modelRefreshSeconds then
      "every " ++ toString settings.modelRefreshSeconds ++ "s + POST /model/refresh"
    else "manual: POST /model/refresh"
  .pure (.response { status := 200, body := .model loaded.isSome model
                      ("models:/" ++ service.name ++ "@" ++ service.alias) refreshPolicy count error })

def refreshEndpoint (service : PredictionService) (settings : ApiSettings) (xAdminToken : Option String) :
    ApiProgram ApiResult :=
  if xAdminToken ≠ some settings.adminToken then
    .pure (.response { status := 401, body := .detail "invalid or missing X-Admin-Token" })
  else
    (refreshCache service).bind fun (previous, current) =>
    ApiCall.readLastError.run.bind fun (error : Option String) =>
    .pure (.response { status := 200, body := .refreshed previous current (previous != current) error })

/-- Whether `RawPredictRequest` accepts the body. -/
def accepts (features : Features) (entityId : Option String) : Bool :=
  exactlyTheHiggsFeatures features && entityId.all fun id => id.length ≤ 64

/-- The answer of a prediction that returned. -/
def predicted (tid : String) (result : PredictionResult) : ApiResult :=
  .response { status := 200, xTraceId := some tid, body := .prediction result }

def predictRawEndpoint (service : PredictionService) (features : Features) (entityId xTraceId : Option String) :
    ApiProgram ApiResult :=
  (traceId xTraceId).bind fun tid =>
  if accepts features entityId then
    ((Amel.predictRaw service features entityId tid).inl.bind fun result => .pure (predicted tid result)).rescue fun
      | .modelNotLoaded => .pure (.response { status := 503, body := .detail "no champion model loaded" })
      | error => .raise error
  else .pure (.response { status := 422, body := .invalid })

def predictEntityEndpoint (service : PredictionService) (entityId : String) (xTraceId : Option String) :
    ApiProgram ApiResult :=
  (traceId xTraceId).bind fun tid =>
  ((Amel.predictEntity service entityId tid).inl.bind fun result => .pure (predicted tid result)).rescue fun
    | .featuresNotFound _ =>
      .pure (.response { status := 404, body := .detail ("no online features for entity " ++ entityId) })
    | .modelNotLoaded => .pure (.response { status := 503, body := .detail "no champion model loaded" })
    | .noFeatureClient => failed "no feature client configured"
    | .raised => ApiCall.strException.run.bind failed
where
  failed (exc : String) : ApiProgram ApiResult :=
    .pure (.response { status := 502, body := .detail ("feature fetch failed: " ++ exc) })

/-- `_refresh_loop`. -/
def refreshRounds (service : PredictionService) : Nat → ApiProgram ApiResult
  | 0 => .pure .done
  | rounds + 1 =>
    ApiCall.wait.run.bind fun (stopped : Bool) =>
    if stopped then .pure .done else (refreshCache service).bind fun _ => refreshRounds service rounds

def body (service : PredictionService) (settings : ApiSettings) : ApiTask → ApiProgram ApiResult
  | loadInitial => (refreshCache service).bind fun _ => .pure .done
  | refreshLoop rounds => refreshRounds service rounds
  | delivered err => (onDelivery err).bind fun _ => .pure .done
  | health => .pure (.response { status := 200, body := .text "ok" })
  | ready => readyEndpoint service
  | model => modelEndpoint service settings
  | refresh xAdminToken => refreshEndpoint service settings xAdminToken
  | predictRaw features entityId xTraceId => predictRawEndpoint service features entityId xTraceId
  | predictEntity entityId xTraceId => predictEntityEndpoint service entityId xTraceId

end ApiTask

/-- The process: the server of the predictions, the other fields of the
cache, the store and the publisher, and the answers of the loader in their
order, each with the thread that asked. -/
structure Api where
  server : Server := {}
  lastError : Option String := none
  lastErrorAt : Option Double := none
  refreshCount : Nat := 0
  loads : List (Nat × LoaderOutcome) := []
  storeError : Option String := none
  deliveryError : Option String := none
  deliveryErrorAt : Option Double := none
  deliveryOkAt : Option Double := none

/-- `PredictionStore.save` catches the exception of its transaction. -/
def saveFailed : (request : ServiceCall) → ServiceReply request → Bool
  | .insertPrediction _, reply => !(reply : Except Unit Unit).isOk
  | _, _ => false

/-- A save or a ping that fails leaves its error behind. -/
inductive Api.Performs (id : Nat) : Api → (request : ServerCall) → ServerReply request → Api → Prop
  | service {s request reply after} : Server.Performs id s.server request reply after →
      saveFailed request reply = false → Performs id s (.inl request) reply { s with server := after }
  | notSaved {s request reply after} (error : String) : Server.Performs id s.server request reply after →
      saveFailed request reply = true →
      Performs id s (.inl request) reply { s with server := after, storeError := some error }
  | currentTraceIds {s} (reply : Option String) : Performs id s (.inr .currentTraceIds) reply s
  | uuidHex {s} (reply : String) : Performs id s (.inr .uuidHex) reply s
  | wait {s} (reply : Bool) : Performs id s (.inr .wait) reply s
  | load {s name «alias»} (reply : LoaderOutcome) :
      Performs id s (.inr (.load name «alias»)) reply { s with loads := s.loads ++ [(id, reply)] }
  | readLastError {s} : Performs id s (.inr .readLastError) s.lastError s
  | writeLastError {s error} : Performs id s (.inr (.writeLastError error)) () { s with lastError := error }
  | writeLastErrorAt {s caught} :
      Performs id s (.inr (.writeLastErrorAt caught)) () { s with lastErrorAt := some caught }
  | readRefreshCount {s} : Performs id s (.inr .readRefreshCount) s.refreshCount s
  | writeRefreshCount {s count} : Performs id s (.inr (.writeRefreshCount count)) () { s with refreshCount := count }
  | health {s} (reply : Bool) : Performs id s (.inr .health) reply s
  | pinged {s} : Performs id s (.inr .ping) true s
  | notPinged {s} (error : String) : Performs id s (.inr .ping) false { s with storeError := some error }
  | readStoreError {s} : Performs id s (.inr .readStoreError) s.storeError s
  | monotonic {s} (reply : Double) : Performs id s (.inr .monotonic) reply s
  | readDeliveryError {s} : Performs id s (.inr .readDeliveryError) s.deliveryError s
  | readDeliveryErrorAt {s} : Performs id s (.inr .readDeliveryErrorAt) s.deliveryErrorAt s
  | readDeliveryOkAt {s} : Performs id s (.inr .readDeliveryOkAt) s.deliveryOkAt s
  | writeDeliveryError {s error} :
      Performs id s (.inr (.writeDeliveryError error)) () { s with deliveryError := some error }
  | writeDeliveryErrorAt {s failed} :
      Performs id s (.inr (.writeDeliveryErrorAt failed)) () { s with deliveryErrorAt := some failed }
  | writeDeliveryOkAt {s delivered} :
      Performs id s (.inr (.writeDeliveryOkAt delivered)) () { s with deliveryOkAt := some delivered }
  | strException {s} (reply : String) : Performs id s (.inr .strException) reply s

def Api.letGo (id : Nat) (s : Api) : Api := { s with server := s.server.letGo id }

/-- Any number of threads, by number. -/
def answering (service : PredictionService) (settings : ApiSettings) :
    Workload Nat Api ApiTask ServerCall ServerReply ServiceError ApiResult where
  body := ApiTask.body service settings
  perform := Api.Performs
  conclude := Api.letGo

abbrev ApiThread := Thread ApiTask ServerCall ServerReply ServiceError ApiResult

abbrev ApiFleet := Fleet Nat Api ApiThread

abbrev ApiAction := Empty ⊕ Nat × ThreadAction ApiTask ServerReply

abbrev ApiStep (service : PredictionService) (settings : ApiSettings) : ApiFleet → ApiAction → ApiFleet → Prop :=
  Fleet.Step (fun _ event _ => event.elim) (answering service settings).Act

/-- While the process lives no thread of it is cut off, and the refresh loop
is started only with a period. -/
def Living (settings : ApiSettings) (_ : ApiFleet) : ApiAction → Prop
  | .inr (_, .crash) => False
  | .inr (_, .start (.refreshLoop _)) => 0 < settings.modelRefreshSeconds
  | _ => True

def ApiFleet.initial : ApiFleet := ⟨{}, fun _ => .idle⟩

end Amel
